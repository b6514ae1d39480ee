-- The texts of records and the names that are made of them. A line of a listing has
-- no line end in it, so no text that a record takes from its line has one, and no
-- name that is put together from such texts has one either.
import EventListing.Proofs.Line.Kept
import EventListing.Proofs.Record.Opened
import EventListing.Proofs.Record.Width
import EventListing.Proofs.Text.OneLine

namespace EventListing

open Text

/-! ## Lines -/

theorem Line.oneLine_of_ofRaw? {raw : String} {line : Line} (h : ofRaw? raw = some line)
    (hraw : OneLine raw.toList) : OneLine line.chars := by
  obtain ⟨-, rfl⟩ := of_ofRaw? h
  refine oneLine_append.mpr ⟨hraw.of_subset (dropEndWhile_subset _ _), ?_⟩
  intro hmem
  cases (List.mem_replicate.mp hmem).2

theorem Listing.oneLine_of_mem_ofText {text : String} {line : Line} (h : line ∈ ofText text) :
    OneLine line.chars := by
  obtain ⟨raw, hmem, hline⟩ := List.mem_filterMap.mp h
  obtain ⟨part, hpart, rfl⟩ := List.mem_map.mp hmem
  refine Line.oneLine_of_ofRaw? hline ?_
  rw [String.toList_ofList]
  exact (of_mem_segments hpart).2

/-! ## Fields -/

theorem Field.extract_subset {field : Field} {line : Line} {cs : List Char}
    (h : field.extract line = some cs) : cs ⊆ line.chars := by
  unfold extract at h
  split at h
  · cases h
    exact List.Subset.trans (List.take_subset _ _) (List.drop_subset _ _)
  · cases h
    exact List.drop_subset _ _
  · have hmem : cs ∈ line.tokens := List.mem_of_getElem? h
    exact (of_mem_segments (List.mem_of_mem_filter hmem)).1

theorem Field.text_subset (field : Field) (line : Line) : field.text line ⊆ line.chars := by
  unfold text
  cases h : field.extract line with
  | none => exact List.nil_subset _
  | some cs => exact extract_subset h

/-! ## Records -/

namespace Record

/-- No text of the record has a line end. -/
def OneLineTexts : Record → Prop
  | .fileStart r =>
    OneLine r.includeMarker.toList ∧ OneLine r.name.toList ∧ OneLine r.inlineName.toList
  | .namePart r => OneLine r.fragment.toList
  | .error r => OneLine r.code.toList ∧ OneLine r.text.toList
  | .processor | .fileEnd _ | .expansion _ | .ignored _ | .unrecognized => True

theorem oneLineTexts_of_decode {line : Line} {record : Record} (h : decode line = .ok record)
    (hline : OneLine line.chars) : record.OneLineTexts := by
  have hfield (field : Field) : OneLine (field.text line) :=
    hline.of_subset (field.text_subset line)
  have hreads : Reads line record := reads_of_decode h
  cases record with
  | fileStart r =>
    simp only [Reads, FileStart.decode] at hreads
    split at hreads
    · cases hreads
    · cases hreads
    · rename_i name hname
      cases hreads
      simp only [OneLineTexts, String.toList_ofList]
      exact ⟨hfield _, hline.of_subset (Field.extract_subset hname),
        (hfield _).of_subset (List.take_subset _ _)⟩
  | namePart r =>
    obtain ⟨id, -, rfl⟩ := ok_of_map_eq_ok hreads
    simp only [OneLineTexts, String.toList_ofList]
    exact hfield _
  | error r =>
    obtain ⟨id, -, rfl⟩ := ok_of_map_eq_ok hreads
    simp only [OneLineTexts, String.toList_ofList]
    exact ⟨(hfield _).of_subset (trim_subset _), (hfield _).of_subset (trim_subset _)⟩
  | processor | fileEnd | expansion | ignored | unrecognized => trivial

theorem oneLineTexts_of_mem_ofText {text : String} {record : Record}
    (h : record ∈ (Listing.ofText text).records) : record.OneLineTexts := by
  obtain ⟨line, hmem, hdecode⟩ := exists_decode h
  exact oneLineTexts_of_decode hdecode (Listing.oneLine_of_mem_ofText hmem)

end Record

/-! ## Names -/

namespace UnitName

variable {name : String}

/-- A segment that is missing reads as empty, which is one line too. -/
theorem oneLine_segment {sep : Char} {cs : List Char} (h : OneLine cs) (index : Nat) :
    OneLine ((segments sep cs)[index]?.getD []) := by
  cases hpart : (segments sep cs)[index]? with
  | none => exact List.not_mem_nil
  | some part => exact h.of_subset (of_mem_segments (List.mem_of_getElem? hpart)).1

theorem oneLine_memberPath (h : OneLine name.toList) : OneLine (memberPath name).toList := by
  have hobject : OneLine ((segments '/' name.toList)[1]?.getD []).dropLast :=
    (oneLine_segment h 1).of_subset (List.dropLast_subset _)
  unfold memberPath
  rw [String.toList_ofList]
  refine oneLine_join (by decide) ?_
  simp only [List.headD_eq_head?_getD, List.head?_eq_getElem?, List.forall_mem_cons]
  exact ⟨oneLine_segment h 0, oneLine_segment hobject 0, oneLine_segment hobject 1,
    List.forall_mem_nil _⟩

theorem oneLine_streamPath (h : OneLine name.toList) : OneLine (streamPath name).toList := by
  unfold streamPath
  rw [String.toList_ofList]
  refine oneLine_join (by decide) ?_
  intro part hpart
  exact h.of_subset (of_mem_segments (List.mem_of_mem_filter hpart)).1

theorem oneLine_path (h : OneLine name.toList) : OneLine (path name).toList := by
  unfold path
  split
  · exact oneLine_memberPath h
  · exact oneLine_streamPath h

/-- A name that spans several records is put together from their shares. -/
theorem oneLine_foldl_addFragment {parts : List (List Char)} (hparts : ∀ part ∈ parts, OneLine part)
    {start : Nat × List Char} (hstart : OneLine start.2) :
    OneLine (parts.foldl addFragment start).2 := by
  induction parts generalizing start with
  | nil => exact hstart
  | cons part parts ih =>
    obtain ⟨hpart, hparts⟩ := List.forall_mem_cons.mp hparts
    have hnext : OneLine (addFragment start part).2 := by
      unfold addFragment
      rw [oneLine_append]
      exact ⟨hstart, hpart.of_subset (List.take_subset _ _)⟩
    rw [List.foldl_cons]
    exact ih hparts hnext

theorem oneLine_full? {records : List Record} (h : ∀ record ∈ records, record.OneLineTexts)
    {id : FileId} (hfull : full? records id = some name) : OneLine name.toList := by
  obtain ⟨r, hfirst, hname⟩ := Option.map_eq_some_iff.mp hfull
  obtain ⟨-, -, hinline⟩ := h _ (of_firstStart? hfirst).1
  split at hname
  · exact hname ▸ hinline
  · subst hname
    rw [String.toList_ofList]
    refine oneLine_foldl_addFragment ?_ hinline
    intro part hpart
    obtain ⟨record, hmem, hrecord⟩ := List.mem_filterMap.mp hpart
    cases record with
    | namePart r' =>
      simp only [Option.ite_none_right_eq_some, Option.some_inj] at hrecord
      exact hrecord.2 ▸ h _ hmem
    | processor | fileStart | fileEnd | expansion | error | ignored | unrecognized => cases hrecord

end UnitName

end EventListing

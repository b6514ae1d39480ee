-- One member out of which the precompiler took lines. Each record names lines
-- of the member, but it takes out what stands at their positions by then. So
-- the named lines are taken out exactly when the records come from last to
-- first.
import EventListing.Proofs.Forest.OneFile
import EventListing.Proofs.LineMap.Splice
import EventListing.Proofs.Record.Width
import EventListing.Proofs.Resolution.Cuts
import EventListing.Proofs.Resolution.Inserted

namespace EventListing

open LineMap Resolution
open Saturating (InRange least greatest)

/-! ## One member with removals -/

/-- The lines that an expansion names as those of the source. -/
def removedRange (r : Record.Expansion) : LineRange :=
  ⟨r.definedStart.getD 0, r.definedEnd.getD 0, none⟩

/-- The listing is that of one member out of which the precompiler took lines:
each expansion leaves its other range unused, and the ranges that they name lie
apart within the member. -/
structure MemberWithRemovals (records : List Record) (opened : Record.FileStart) (count : Nat)
    (edits : List Record.Expansion) : Prop where
  records_eq : records = .processor :: .fileStart opened ::
    (edits.map .expansion ++ [.fileEnd ⟨FileId.root, some (count : Int)⟩])
  root_id : opened.fileId = FileId.root
  root_line : opened.line = some 0
  edits_root : ∀ r ∈ edits, r.fileId = FileId.root
  unused : ∀ r ∈ edits, r.rangeStart = some 0 ∧ r.rangeEnd = some 0
  inside : ∀ r ∈ edits, (removedRange r).Proper ∧ (removedRange r).high ≤ count
  apart : (edits.map removedRange).Pairwise LineRange.Apart

/-! ## One removal -/

/-- A removal at a position that is not negative needs no care for the end. -/
theorem LineMap.lines_remove (m : LineMap) {position : Int} (h : 0 ≤ position) (count : Nat) :
    (m.remove position count).lines =
      m.lines.take position.toNat ++ m.lines.drop (position.toNat + count) := by
  unfold remove spliceIndex len
  rw [if_pos h]
  by_cases hle : position.toNat ≤ m.lines.length
  · rw [Nat.min_eq_left hle]
  · rw [Nat.min_eq_right (by omega)]
    simp only
    rw [List.take_of_length_le (Nat.le_refl _), List.take_of_length_le (by omega),
      List.drop_of_length_le (by omega), List.drop_of_length_le (by omega)]

namespace Resolution.Mapping

variable {step : Step} {file : FileNode} {m : Mapping}

/-- Such an edit takes out what stands at the positions of its range. -/
theorem lines_applyEdit_removal {r : Record.Expansion} (hstart : file.startsAt = some (-1))
    (hunused : r.rangeStart = some 0 ∧ r.rangeEnd = some 0) (hproper : (removedRange r).Proper)
    (hhigh : (removedRange r).high ≤ greatest) :
    (applyEdit step file m (Edit.ofRecord r)).lines.lines = cut m.lines.lines (removedRange r) := by
  have hgenerated : (Edit.ofRecord r).generated.isPlaced = false := by
    unfold Edit.ofRecord
    rw [hunused.1, hunused.2]
    rfl
  have hdefined : (Edit.ofRecord r).defined.isPlaced := Edit.isPlaced_range hproper hhigh
  have hlen : (Edit.ofRecord r).defined.len = (removedRange r).size :=
    Edit.len_range hproper hhigh
  have hlow : (Edit.ofRecord r).defined.low = (removedRange r).low - 1 := by
    have hrange := Edit.range_of_proper hproper hhigh
    exact congrArg LineRange.low hrange
  obtain ⟨hone, hle⟩ := hproper
  have hposition : positionIn (-1) (Edit.ofRecord r).defined.low = (removedRange r).low - 1 := by
    rw [hlow]
    exact positionIn_root (by omega) (by omega)
  unfold applyEdit
  rw [if_neg (by simp [hgenerated]), if_pos hdefined]
  simp only [hstart, hposition, hlen]
  rw [LineMap.lines_remove _ (by omega)]
  rfl

theorem lines_foldl_removals {edits : List Record.Expansion} (hstart : file.startsAt = some (-1))
    (hunused : ∀ r ∈ edits, r.rangeStart = some 0 ∧ r.rangeEnd = some 0)
    (hedits : ∀ r ∈ edits, (removedRange r).Proper ∧ (removedRange r).high ≤ greatest) :
    ((edits.map Edit.ofRecord).foldl (applyEdit step file) m).lines.lines =
      (edits.map removedRange).foldl cut m.lines.lines := by
  induction edits generalizing m with
  | nil => rfl
  | cons r edits ih =>
    obtain ⟨hr, hedits⟩ := List.forall_mem_cons.mp hedits
    obtain ⟨hrunused, hunused⟩ := List.forall_mem_cons.mp hunused
    rw [List.map_cons, List.foldl_cons, ih hunused hedits,
      lines_applyEdit_removal hstart hrunused hr.1 hr.2]
    rfl

end Resolution.Mapping

/-! ## All removals -/

theorem map_foldl_cut {α β : Type} (f : α → β) (ranges : List LineRange) (l : List α) :
    (ranges.foldl cut l).map f = ranges.foldl cut (l.map f) := by
  induction ranges generalizing l with
  | nil => rfl
  | cons r ranges ih => rw [List.foldl_cons, List.foldl_cons, ih, map_cut]

namespace MemberWithRemovals

variable {listing : Listing} {opened : Record.FileStart} {count : Nat}
variable {edits : List Record.Expansion}

theorem forest_steps (h : MemberWithRemovals listing.records opened count edits) :
    (Forest.ofListing listing).steps = [⟨[memberFile opened count edits []]⟩] := by
  unfold Forest.ofListing
  rw [h.records_eq]
  exact Forest.steps_of_member h.root_id h.root_line h.edits_root (List.forall_mem_nil _)

theorem le_greatest (h : MemberWithRemovals listing.records opened count edits) :
    (count : Int) ≤ greatest := by
  have hmem : .fileEnd ⟨FileId.root, some (count : Int)⟩ ∈ listing.records := by
    rw [h.records_eq]
    simp
  exact (Record.length_inRange hmem rfl).2

/-- The map of such a listing: the lines of the member, with the ranges cut out
one after the other. -/
theorem lines_eq (h : MemberWithRemovals listing.records opened count edits) :
    (Mapping.ofForest (Forest.ofListing listing)).lines.lines =
      (edits.map removedRange).foldl cut (numbered (UnitName.path opened.name) count false) := by
  have hgreatest := h.le_greatest
  have hunit : (memberFile opened count edits []).id ≠ FileId.baseUnit := by
    simp [memberFile, FileId.root, FileId.baseUnit]
  have hedited : (memberFile opened count edits []).edits = edits.map Edit.ofRecord := rfl
  have hedits : ∀ r ∈ edits, (removedRange r).Proper ∧ (removedRange r).high ≤ greatest :=
    fun r hr => ⟨(h.inside r hr).1, Int.le_trans (h.inside r hr).2 hgreatest⟩
  unfold Mapping.ofForest
  rw [h.forest_steps]
  simp only [Mapping.addStep, List.foldl_cons, List.foldl_nil]
  rw [Mapping.lines_withEdits, hedited,
    Mapping.lines_foldl_removals rfl h.unused hedits, Mapping.lines_beforeEdits, if_pos rfl,
    Mapping.lines_inline_root _ hunit rfl rfl]
  rfl

end MemberWithRemovals

/-! ## The law -/

/-- The map of a member with removals holds exactly the lines that no removal
names, in their order, if and only if the removals come from last to first. In
any other order, a removal takes out the lines that have moved up to the
positions of the ones that it names. -/
theorem removals_take_their_lines_iff (listing : Listing) (opened : Record.FileStart) (count : Nat)
    (edits : List Record.Expansion)
    (h : MemberWithRemovals listing.records opened count edits) :
    (Mapping.ofForest (Forest.ofListing listing)).lines.lines =
        (numbered (UnitName.path opened.name) count false).filter
          (fun o => outside (edits.map removedRange) o.line) ↔
      (edits.map removedRange).Pairwise fun earlier later => later.high < earlier.low := by
  have hranges : ∀ r ∈ edits.map removedRange, r.Proper ∧ r.high ≤ count := by
    simpa using h.inside
  have hinjective : Function.Injective fun line : Nat =>
      (⟨UnitName.path opened.name, line, false⟩ : Origin) := by
    intro a b hab
    exact congrArg Origin.line hab
  rw [← foldl_cut_eq_filter_iff hranges h.apart, h.lines_eq, numbered, ← map_foldl_cut,
    List.filter_map, hinjective.list_map.eq_iff]
  rfl

/-- A member of five lines with these expansions. -/
def fiveLines (expansions : List String) : Listing := Listing.ofLines (
  ["PROCESSOR  0 000 1",
    "FILEID     0 001 000000 013 LIB/SRC(ROOT) 20230101120000 0"] ++ expansions ++
  ["FILEEND    0 001 000005"])

/-- The fourth line is taken out, and then the second one. -/
def lastFirst : Listing := fiveLines [
  "EXPANSION  0 001 000004 000004 001 000000 000000",
  "EXPANSION  0 001 000002 000002 001 000000 000000"]

/-- The second line is named first, and then the fourth one. -/
def firstFirst : Listing := fiveLines [
  "EXPANSION  0 001 000002 000002 001 000000 000000",
  "EXPANSION  0 001 000004 000004 001 000000 000000"]

def fiveLinesOpened : Record.FileStart :=
  ⟨FileId.root, "000000", some 0, some 13, "LIB/SRC(ROOT)", "LIB/SRC(ROOT)"⟩

/-- The expansion that names one line. -/
def removalOf (line : Int) : Record.Expansion :=
  ⟨FileId.root, some line, some line, some FileId.root, some 0, some 0⟩

theorem last_first_takes_its_lines :
    MemberWithRemovals lastFirst.records fiveLinesOpened 5 [removalOf 4, removalOf 2] ∧
      (Mapping.ofForest (Forest.ofListing lastFirst)).lines.lines =
        [⟨"LIB/SRC/ROOT", 1, false⟩, ⟨"LIB/SRC/ROOT", 3, false⟩, ⟨"LIB/SRC/ROOT", 5, false⟩] := by
  have h : MemberWithRemovals lastFirst.records fiveLinesOpened 5 [removalOf 4, removalOf 2] := by
    refine ⟨by decide +kernel, rfl, rfl, by decide, by decide, by decide, by decide⟩
  refine ⟨h, ?_⟩
  rw [(removals_take_their_lines_iff lastFirst _ _ _ h).mpr (by decide)]
  decide

/-- When the fourth line is named, the fifth one stands in its place. -/
theorem first_first_takes_another_line :
    MemberWithRemovals firstFirst.records fiveLinesOpened 5 [removalOf 2, removalOf 4] ∧
      (Mapping.ofForest (Forest.ofListing firstFirst)).lines.lines =
        [⟨"LIB/SRC/ROOT", 1, false⟩, ⟨"LIB/SRC/ROOT", 3, false⟩, ⟨"LIB/SRC/ROOT", 4, false⟩] ∧
      (Mapping.ofForest (Forest.ofListing firstFirst)).lines.lines ≠
        (numbered (UnitName.path fiveLinesOpened.name) 5 false).filter
          (fun o => outside ([removalOf 2, removalOf 4].map removedRange) o.line) := by
  have hlines : (Mapping.ofForest (Forest.ofListing firstFirst)).lines.lines =
      [⟨"LIB/SRC/ROOT", 1, false⟩, ⟨"LIB/SRC/ROOT", 3, false⟩, ⟨"LIB/SRC/ROOT", 4, false⟩] := by
    decide +kernel
  refine ⟨⟨by decide +kernel, rfl, rfl, by decide, by decide, by decide, by decide⟩, hlines, ?_⟩
  rw [hlines]
  decide

end EventListing

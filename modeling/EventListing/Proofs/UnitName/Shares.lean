-- Names that span several records. The records of a file carry its name in
-- shares: each share but the last fills a record, and what stands behind a share
-- in its record does not count. Put together, the shares are the name, and no
-- name is longer than it was declared to be.
import EventListing.Proofs.Record.Opened
import EventListing.Proofs.Record.Width

namespace EventListing.UnitName

open Layout.FileStart (maxNameLength)

/-! ## The record that opens a file first -/

/-- The file start comes before every other one with its number. -/
def OpensFirst (records : List Record) (r : Record.FileStart) : Prop :=
  ∃ before behind, records = before ++ .fileStart r :: behind ∧
    ∀ r', .fileStart r' ∈ before → r'.fileId ≠ r.fileId

theorem firstStart?_eq_some_iff {records : List Record} {id : FileId} {r : Record.FileStart} :
    firstStart? records id = some r ↔ r.fileId = id ∧ OpensFirst records r := by
  unfold firstStart? OpensFirst
  rw [List.findSome?_eq_some_iff]
  constructor
  · rintro ⟨before, record, behind, rfl, hrecord, hbefore⟩
    cases record with
    | fileStart r' =>
      simp only [Option.ite_none_right_eq_some, Option.some_inj] at hrecord
      obtain ⟨rfl, rfl⟩ := hrecord
      refine ⟨rfl, before, behind, rfl, ?_⟩
      intro r'' hr'' hid
      have hnone := hbefore _ hr''
      simp [hid] at hnone
    | processor | namePart | fileEnd | expansion | error | ignored | unrecognized => cases hrecord
  · rintro ⟨rfl, before, behind, rfl, hbefore⟩
    refine ⟨before, _, behind, rfl, if_pos rfl, ?_⟩
    intro record hrecord
    cases record with
    | fileStart r' => exact if_neg (hbefore r' hrecord)
    | processor | namePart | fileEnd | expansion | error | ignored | unrecognized => rfl

/-! ## The shares of a name -/

/-- The records carry `left`, share by share, in the further parts of the file's
name. A part may have anything behind its share. When nothing is left, the shares
of further parts are empty. -/
def Carries (id : FileId) (left : List Char) : List Record → Prop
  | [] => left = []
  | .namePart r :: rest =>
    if r.fileId = id then
      left.take maxNameLength <+: r.fragment.toList ∧ Carries id (left.drop maxNameLength) rest
    else Carries id left rest
  | _ :: rest => Carries id left rest

theorem fragments_namePart (r : Record.NamePart) (rest : List Record) (id : FileId) :
    fragments (.namePart r :: rest) id =
      if r.fileId = id then r.fragment.toList :: fragments rest id else fragments rest id := by
  unfold fragments
  split
  · rename_i hid
    exact List.filterMap_cons_some (if_pos hid)
  · rename_i hid
    exact List.filterMap_cons_none (if_neg hid)

/-- One more part takes its share of what is left, whatever stands behind the
share. -/
theorem addFragment_of_share {left fragment : List Char} {remaining : Nat}
    (hremaining : remaining - maxNameLength = left.length)
    (hshare : left.take maxNameLength <+: fragment) (name : List Char) :
    addFragment (remaining, name) fragment =
      (left.length, name ++ left.take maxNameLength) := by
  have htake := List.prefix_iff_eq_take.mp hshare
  rw [List.length_take, Nat.min_comm] at htake
  calc addFragment (remaining, name) fragment
      = (left.length, name ++ fragment.take (min left.length maxNameLength)) := by
        rw [← hremaining]
        rfl
    _ = (left.length, name ++ left.take maxNameLength) := by rw [← htake]

/-- The count of what remains runs one record ahead of the shares, so a part
behind the last share adds nothing. -/
theorem foldl_addFragment {id : FileId} {left : List Char} {records : List Record}
    (h : Carries id left records) {remaining : Nat}
    (hremaining : remaining - maxNameLength = left.length) (name : List Char) :
    ((fragments records id).foldl addFragment (remaining, name)).2 = name ++ left := by
  induction records generalizing left remaining name with
  | nil =>
    have hnone : left = [] := h
    rw [hnone, List.append_nil]
    rfl
  | cons record rest ih =>
    cases record with
    | namePart r =>
      unfold Carries at h
      rw [fragments_namePart]
      split at h
      · rename_i hid
        obtain ⟨hshare, hrest⟩ := h
        have hnext : left.length - maxNameLength = (left.drop maxNameLength).length :=
          List.length_drop.symm
        rw [if_pos hid, List.foldl_cons, addFragment_of_share hremaining hshare, ih hrest hnext,
          List.append_assoc, List.take_append_drop]
      · rename_i hid
        rw [if_neg hid]
        exact ih h hremaining name
    | processor | fileStart | fileEnd | expansion | error | ignored | unrecognized =>
      exact ih h hremaining name

/-! ## The declared length -/

/-- The parts add no more than the declared length leaves behind the first
share. -/
theorem length_foldl_addFragment_le (parts : List (List Char)) (start : Nat × List Char) :
    (parts.foldl addFragment start).2.length ≤
      start.2.length + (start.1 - maxNameLength) := by
  induction parts generalizing start with
  | nil => exact Nat.le_add_right _ _
  | cons part parts ih =>
    have hshare : (part.take (min (start.1 - maxNameLength) maxNameLength)).length ≤
        min (start.1 - maxNameLength) maxNameLength := List.length_take_le _ _
    rw [List.foldl_cons]
    refine Nat.le_trans (ih (addFragment start part)) ?_
    simp only [addFragment, List.length_append]
    omega

/-- The share of a name that a file start carries fits in the declared length and
in one record. -/
theorem length_inlineName_le {listing : Listing} {r : Record.FileStart}
    (h : .fileStart r ∈ listing.records) :
    r.inlineName.length ≤ min (declaredLength r) maxNameLength := by
  obtain ⟨line, -, hdecode⟩ := Record.exists_decode h
  have hreads : Record.FileStart.decode line = .ok r := Record.reads_of_decode hdecode
  unfold Record.FileStart.decode at hreads
  split at hreads
  · cases hreads
  · cases hreads
  · cases hreads
    rw [String.length_ofList]
    exact List.length_take_le _ _

theorem length_full?_le {listing : Listing} {id : FileId} {r : Record.FileStart} {name : String}
    (hfirst : firstStart? listing.records id = some r)
    (hname : full? listing.records id = some name) : name.length ≤ declaredLength r := by
  have hinline := length_inlineName_le (of_firstStart? hfirst).1
  unfold full? at hname
  rw [hfirst, Option.map_some, Option.some_inj] at hname
  subst hname
  split
  · omega
  · have hparts := length_foldl_addFragment_le (fragments listing.records id)
      (declaredLength r, r.inlineName.toList)
    rw [String.length_ofList]
    refine Nat.le_trans hparts ?_
    rw [String.length_toList]
    omega

/-! ## The law -/

/-- A name that is too long for one record comes back whole, when the file start
that opens the file first declares its length and carries its first share, and the
further parts of the file carry the rest in their order, with any other records
between them, any text behind the shares, and any parts behind the last share. And
no listing gives a file a name longer than its first file start declares. -/
theorem long_names_come_back_whole (listing : Listing) (id : FileId) :
    (∀ name : String, ∀ r, maxNameLength < name.length →
        OpensFirst listing.records r → r.fileId = id → r.nameLength = some (name.length : Int) →
        r.inlineName.toList = name.toList.take maxNameLength →
        Carries id (name.toList.drop maxNameLength) listing.records →
        full? listing.records id = some name) ∧
      ∀ name, full? listing.records id = some name →
        ∃ r, OpensFirst listing.records r ∧ r.fileId = id ∧
          (name.length : Int) ≤ max (r.nameLength.getD 0) 0 := by
  refine ⟨?_, ?_⟩
  · intro name r hlong hopens hid hlength hinline hcarries
    have hfirst := firstStart?_eq_some_iff.mpr ⟨hid, hopens⟩
    have hdeclared : declaredLength r = name.length := by
      rw [declaredLength, hlength, Option.getD_some, Int.toNat_natCast]
    have hleft : name.length - maxNameLength = (name.toList.drop maxNameLength).length := by
      rw [List.length_drop, String.length_toList]
    unfold full?
    rw [hfirst, Option.map_some, if_neg (by omega), hdeclared]
    simp only
    rw [foldl_addFragment hcarries hleft, hinline, List.take_append_drop, String.ofList_toList]
  · intro name hname
    obtain ⟨r, hfirst, -⟩ := Option.map_eq_some_iff.mp hname
    have hle := length_full?_le hfirst hname
    obtain ⟨hid, hopens⟩ := firstStart?_eq_some_iff.mp hfirst
    unfold declaredLength at hle
    exact ⟨r, hopens, hid, by omega⟩

/-- A path that needs three records, cut into its shares. -/
def longShares : List (List Char) :=
  ["/a b/".toList ++ List.replicate 250 'a', List.replicate 255 'b', "/tail.rpgle".toList]

/-- The shares of the path among records of another file, with one more part behind the
last share. -/
def spread : Listing := [
  Line.pad "FILEID     0 001 000000 005 /other.rpgle 20230101120000 0".toList,
  Line.pad ("FILEID     0 002 000000 521 ".toList ++ longShares[0] ++ " 20230101 0".toList),
  Line.pad "FILEIDCONT 0 001            /ignored".toList,
  Line.pad ("FILEIDCONT 0 002            ".toList ++ longShares[1] ++ " 20230101 0".toList),
  Line.pad "PROCESSOR  0 000 1".toList,
  Line.pad "FILEIDCONT 0 002            /tail.rpgle 20230101 0".toList,
  Line.pad "FILEIDCONT 0 002            /behind".toList]

theorem spread_records : spread.records = [
    .fileStart ⟨⟨1⟩, "000000", some 0, some 5, "/other.rpgle", "/othe"⟩,
    .fileStart ⟨⟨2⟩, "000000", some 0, some 521, "/a", String.ofList longShares[0]⟩,
    .namePart ⟨⟨1⟩, String.ofList ("/ignored".toList ++ List.replicate 114 ' ')⟩,
    .namePart ⟨⟨2⟩, String.ofList (longShares[1] ++ " 20230101 0".toList)⟩,
    .processor,
    .namePart ⟨⟨2⟩, String.ofList ("/tail.rpgle 20230101 0".toList ++ List.replicate 100 ' ')⟩,
    .namePart ⟨⟨2⟩, String.ofList ("/behind".toList ++ List.replicate 115 ' ')⟩] := by
  decide +kernel

theorem spread_carries : Carries ⟨2⟩ (longShares.flatten.drop maxNameLength) spread.records := by
  rw [spread_records]
  simp only [Carries, String.toList_ofList]
  decide +kernel

theorem spread_path_comes_back :
    full? spread.records ⟨2⟩ = some (String.ofList longShares.flatten) := by
  have hopens : OpensFirst spread.records
      ⟨⟨2⟩, "000000", some 0, some 521, "/a", String.ofList longShares[0]⟩ := by
    rw [spread_records]
    exact ⟨[_], _, rfl, by simp⟩
  refine (long_names_come_back_whole spread ⟨2⟩).1 _ _ ?_ hopens rfl ?_ ?_ ?_
  · rw [String.length_ofList]
    decide +kernel
  · rw [String.length_ofList]
    decide +kernel
  · rw [String.toList_ofList, String.toList_ofList]
    decide +kernel
  · rw [String.toList_ofList]
    exact spread_carries

end EventListing.UnitName

-- The edits of a map are splices of an array. One formula says where a position of any
-- sign and size stands; insertion and removal are the two halves of one splice there,
-- and a splice is taken back by the splice that puts the old entries in again.
import EventListing.Proofs.LineMap.Splice

namespace EventListing.LineMap

/-! ## Positions of any sign and size -/

/-- A position that is not negative stands for itself, up to the end. A negative one
counts back from the end, down to the front. -/
theorem natCast_spliceIndex (len : Nat) (position : Int) :
    (spliceIndex len position : Int) =
      if 0 ≤ position then min position len else max 0 (len + position) := by
  unfold spliceIndex
  split <;> omega

/-- The least position of 64 bits stands for the front. -/
example : spliceIndex 3 (-9223372036854775808) = 0 := by decide

/-! ## The splice of an array -/

/-- Up to `count` lines from `start` on make way for the entries. -/
def spliced (lines : List Origin) (start count : Nat) (entries : List Origin) : List Origin :=
  lines.take start ++ entries ++ lines.drop (start + count)

theorem insert_eq_spliced (m : LineMap) (position : Int) (entries : List Origin) :
    (m.insert position entries).lines =
      spliced m.lines (spliceIndex m.len position) 0 entries :=
  rfl

theorem remove_eq_spliced (m : LineMap) (position : Int) (count : Nat) :
    (m.remove position count).lines =
      spliced m.lines (spliceIndex m.len position) count [] := by
  unfold spliced
  rw [List.append_nil]
  rfl

/-- A splice is taken back by the one that puts the old lines in again. -/
theorem spliced_spliced {lines : List Origin} {start : Nat} (hstart : start ≤ lines.length)
    (count : Nat) (entries : List Origin) :
    spliced (spliced lines start count entries) start entries.length
      ((lines.drop start).take count) = lines := by
  have hfront : (lines.take start).length = start := List.length_take_of_le hstart
  have hkept : (lines.take start ++ entries).length = start + entries.length := by
    rw [List.length_append, hfront]
  calc spliced (spliced lines start count entries) start entries.length
        ((lines.drop start).take count)
      = lines.take start ++ (lines.drop start).take count ++ lines.drop (start + count) := by
        unfold spliced
        rw [List.drop_left' hkept, List.append_assoc (lines.take start), List.take_left' hfront]
    _ = lines := by
        rw [← List.drop_drop, List.append_assoc, List.take_append_drop, List.take_append_drop]

/-- What was put in is taken out again at the place where it begins. -/
theorem remove_insert (m : LineMap) (position : Int) (entries : List Origin) :
    (m.insert position entries).remove (spliceIndex m.len position) entries.length = m := by
  have hstart := spliceIndex_le m.len position
  have hlong : spliceIndex m.len position ≤ (m.insert position entries).len := by
    rw [len_insert]
    omega
  have hlines := remove_eq_spliced (m.insert position entries) (spliceIndex m.len position)
    entries.length
  rw [spliceIndex_natCast hlong, insert_eq_spliced] at hlines
  have hundone := spliced_spliced hstart 0 entries
  rw [List.take_zero, ← hlines] at hundone
  exact congrArg LineMap.mk hundone

/-! ## Lines of a file -/

/-- The entries are `count` lines of a file, numbered from one. -/
structure AreLines (path : String) (count : Nat) (isSql : Bool) (entries : List Origin) :
    Prop where
  length_eq : entries.length = count
  getElem?_eq : ∀ i < count, entries[i]? = some ⟨path, i + 1, isSql⟩

theorem areLines_numbered (path : String) (count : Nat) (isSql : Bool) :
    AreLines path count isSql (numbered path count isSql) :=
  ⟨length_numbered path count isSql, fun _ => getElem?_numbered⟩

theorem remove_insert_numbered (m : LineMap) (position : Int) (path : String) (count : Nat)
    (isSql : Bool) :
    (m.insert position (numbered path count isSql)).remove (spliceIndex m.len position) count =
      m := by
  have h := m.remove_insert position (numbered path count isSql)
  rwa [length_numbered] at h

/-! ## The law -/

/-- Every edit of a map is a splice of its entries at the place for which the position
stands, and an insertion is undone by a removal there. A look-up finds the entry at its
index and nothing anywhere else. -/
theorem edits_are_array_splices (m : LineMap) (position : Int) (path : String) (count : Nat) :
    (∃ start : Nat,
      (start : Int) = (if 0 ≤ position then min position m.len else max 0 (m.len + position)) ∧
      (∃ entries, AreLines path count false entries ∧
        (m.insertFile position path count).lines =
          m.lines.take start ++ entries ++ m.lines.drop start) ∧
      (∃ entries, AreLines path count true entries ∧
        (m.insertSql position path count).lines =
          m.lines.take start ++ entries ++ m.lines.drop start) ∧
      (m.remove position count).lines =
        m.lines.take start ++ m.lines.drop (min (start + count) m.len) ∧
      (m.insertFile position path count).remove start count = m ∧
      (m.insertSql position path count).remove start count = m) ∧
    ∀ index o,
      (m.get? index = some o ↔ ∃ i : Nat, i = index ∧ m.lines[i]? = some o) ∧
      (m.resolve? index = some o ↔
        (∃ i : Nat, i = index ∧ m.lines[i]? = some o) ∧ o.isSql = false) := by
  refine ⟨⟨spliceIndex m.len position, natCast_spliceIndex m.len position,
    ⟨_, areLines_numbered path count false, rfl⟩, ⟨_, areLines_numbered path count true, rfl⟩,
    ?_, m.remove_insert_numbered position path count false,
    m.remove_insert_numbered position path count true⟩, fun index o => ⟨get?_eq_some_iff, ?_⟩⟩
  · rw [remove_eq_spliced]
    unfold spliced len
    rw [List.append_nil, ← List.drop_eq_drop_min]
  · rw [resolve?_eq_some_iff, get?_eq_some_iff]

end EventListing.LineMap

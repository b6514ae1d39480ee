-- Numbers in columns. A column of fixed width holds only so many digits, so
-- a number that is read from it is small. The line of an error stands in six
-- characters.
import Mathlib.Algebra.Group.Nat.Defs
import Mathlib.Data.List.Induction
import EventListing.Record.Decode

namespace EventListing

open Text

/-! ## Numerals -/

namespace Decimal

theorem digit?_lt {c : Char} {n : Nat} (h : digit? c = some n) : n < 10 := by
  unfold digit? at h
  split at h
  · rename_i hc
    have hle : c.toNat ≤ 57 := hc.2
    have hn : c.toNat - 48 = n := Option.some.inj h
    omega
  · cases h

theorem digits?_append_singleton {cs : List Char} (hcs : cs ≠ []) (c : Char) :
    digits? (cs ++ [c]) = (digits? cs).bind fun n => (digit? c).map (10 * n + ·) := by
  rcases cs with _ | ⟨d, cs⟩
  · exact absurd rfl hcs
  · simp [digits?, List.foldlM_append, Option.bind_assoc]

/-- A numeral of `k` digits is less than ten to the power of `k`. -/
theorem digits?_lt {cs : List Char} {n : Nat} (h : digits? cs = some n) :
    n < 10 ^ cs.length := by
  induction cs using List.reverseRecOn generalizing n with
  | nil => cases h
  | append_singleton cs c ih =>
    rw [List.length_append, List.length_singleton, Nat.pow_succ]
    by_cases hcs : cs = []
    · subst hcs
      have hc : (digit? c).map (10 * 0 + ·) = some n := by simpa [digits?] using h
      obtain ⟨d, hd, hn⟩ := Option.map_eq_some_iff.mp hc
      have := digit?_lt hd
      simp only [List.length_nil]
      omega
    · rw [digits?_append_singleton hcs] at h
      obtain ⟨m, hm, hmap⟩ := Option.bind_eq_some_iff.mp h
      obtain ⟨d, hd, hn⟩ := Option.map_eq_some_iff.mp hmap
      have := digit?_lt hd
      have := ih hm
      omega

theorem natural?_lt {cs : List Char} {n : Nat} (h : natural? cs = some n) :
    n < 10 ^ cs.length := by
  unfold natural? at h
  split at h
  · have := digits?_lt h
    rw [List.length_cons, Nat.pow_succ]
    omega
  · exact digits?_lt h

theorem integer?_lt {cs : List Char} {n : Int} (h : integer? cs = some n) :
    n.natAbs < 10 ^ cs.length := by
  unfold integer? at h
  split at h
  · obtain ⟨m, hm, rfl⟩ := Option.map_eq_some_iff.mp h
    have := digits?_lt hm
    rw [List.length_cons, Nat.pow_succ]
    simp only [Int.ofNat_eq_natCast, Int.natAbs_neg, Int.natAbs_natCast]
    omega
  · obtain ⟨m, hm, rfl⟩ := Option.map_eq_some_iff.mp h
    exact natural?_lt hm

theorem word64?_lt {cs : List Char} {n : Int} (h : word64? cs = some n) :
    n.natAbs < 10 ^ cs.length :=
  integer?_lt (Option.filter_eq_some_iff.mp h).1

end Decimal

/-! ## Columns -/

theorem Text.length_trim_le (cs : List Char) : (trim cs).length ≤ cs.length := by
  have hend := (@List.dropWhile_sublist _ (cs.dropWhile isBlank).reverse isBlank).length_le
  have hstart := (@List.dropWhile_sublist _ cs isBlank).length_le
  unfold trim trimEnd dropEndWhile
  rw [List.length_reverse]
  rw [List.length_reverse] at hend
  exact Nat.le_trans hend hstart

/-- A number in a column is less than ten to the power of its width. -/
theorem Field.word64_lt {field : Field} {line : Line} {offset width : Nat} {n : Int}
    (hplace : field.place = .column offset width) (h : field.word64 line = some n) :
    n.natAbs < 10 ^ width := by
  have hraw : field.extract line = some (line.column offset width) := by
    unfold extract
    rw [hplace]
  have hwidth : (line.column offset width).length ≤ width := List.length_take_le _ _
  unfold word64 number at h
  rw [hraw] at h
  simp only at h
  split at h
  · cases h
    exact Nat.pow_pos (by decide)
  · have hlt := Decimal.word64?_lt h
    have hle := Nat.le_trans (Text.length_trim_le (line.column offset width)) hwidth
    exact Nat.lt_of_lt_of_le hlt (Nat.pow_le_pow_right (by decide) hle)

/-- A number that was read is one of 64 bits. -/
theorem Field.word64_inRange {field : Field} {line : Line} {n : Int}
    (h : field.word64 line = some n) : Saturating.InRange n := by
  unfold word64 number at h
  split at h
  · cases h
  · split at h
    · cases h
      decide
    · exact Decimal.word64?_inRange h

/-! ## Records -/

theorem ok_of_map_eq_ok {ε α β : Type} {f : α → β} {x : Except ε α} {b : β}
    (h : x.map f = .ok b) : ∃ a, x = .ok a ∧ f a = b := by
  cases x with
  | error e => cases h
  | ok a => cases h; exact ⟨a, rfl, rfl⟩

namespace Record

/-- What the line says when it is read as a record of the same kind. -/
def Reads (line : Line) : Record → Prop
  | .fileStart r => FileStart.decode line = .ok r
  | .namePart r => NamePart.decode line = .ok r
  | .fileEnd r => FileEnd.decode line = .ok r
  | .expansion r => Expansion.decode line = .ok r
  | .error r => Error.decode line = .ok r
  | .processor | .ignored _ | .unrecognized => True

/-- A record comes from a line with the tag of its kind. -/
theorem reads_of_decode {line : Line} {record : Record} (h : Record.decode line = .ok record) :
    Reads line record := by
  unfold Record.decode at h
  split at h
  case h_1 | h_2 | h_8 =>
    cases h
    trivial
  all_goals
    obtain ⟨r, hr, rfl⟩ := ok_of_map_eq_ok h
    exact hr

/-- A record of a listing comes from one of its lines. -/
theorem exists_decode {listing : Listing} {record : Record} (h : record ∈ listing.records) :
    ∃ line ∈ listing, Record.decode line = .ok record := by
  obtain ⟨line, hmem, hline⟩ := List.mem_filterMap.mp h
  refine ⟨line, hmem, ?_⟩
  cases hd : Record.decode line with
  | error e =>
    rw [hd] at hline
    cases hline
  | ok record' =>
    rw [hd] at hline
    cases hline
    rfl

/-- The length of a file that was decoded is a number of 64 bits. -/
theorem length_inRange {listing : Listing} {r : Record.FileEnd} {n : Int}
    (hr : .fileEnd r ∈ listing.records) (hn : r.length = some n) : Saturating.InRange n := by
  obtain ⟨line, -, hdecode⟩ := exists_decode hr
  obtain ⟨id, -, rfl⟩ := ok_of_map_eq_ok (reads_of_decode hdecode)
  exact Field.word64_inRange hn

/-- The line of an error that was decoded has at most six digits. -/
theorem natAbs_line_lt {listing : Listing} {r : Record.Error} {n : Int}
    (hr : .error r ∈ listing.records) (hn : r.line = some n) : n.natAbs < 1000000 := by
  obtain ⟨line, -, hdecode⟩ := exists_decode hr
  obtain ⟨id, -, rfl⟩ := ok_of_map_eq_ok (reads_of_decode hdecode)
  exact Field.word64_lt (rfl : Layout.Error.line.place = .column 37 6) hn

/-- The first column of an error that was decoded has at most three digits. -/
theorem natAbs_columnStart_lt {listing : Listing} {r : Record.Error} {n : Int}
    (hr : .error r ∈ listing.records) (hn : r.columnStart = some n) : n.natAbs < 1000 := by
  obtain ⟨line, -, hdecode⟩ := exists_decode hr
  obtain ⟨id, -, rfl⟩ := ok_of_map_eq_ok (reads_of_decode hdecode)
  exact Field.word64_lt (rfl : Layout.Error.columnStart.place = .column 33 3) hn

theorem sub_line {listing : Listing} {r : Record.Error} {n : Int}
    (hr : .error r ∈ listing.records) (hn : r.line = some n) : Saturating.sub n 1 = n - 1 := by
  have hlt := natAbs_line_lt hr hn
  apply Saturating.sub_of_inRange
  simp only [Saturating.InRange, Saturating.least, Saturating.greatest]
  omega

/-- Taking one from the line and adding it again changes nothing. -/
theorem add_sub_line {listing : Listing} {r : Record.Error} {n : Int}
    (hr : .error r ∈ listing.records) (hn : r.line = some n) :
    Saturating.add (Saturating.sub n 1) 1 = n := by
  have hlt := natAbs_line_lt hr hn
  rw [sub_line hr hn, Saturating.add_of_inRange]
  · omega
  · simp only [Saturating.InRange, Saturating.least, Saturating.greatest]
    omega

end Record

end EventListing

-- Lines that the precompiler put into a text. Each edit puts its range where
-- the listing says, and leaves the ranges before it in place. So every other
-- line is further down by the number of lines of the ranges before it.
import Mathlib.Algebra.Order.Ring.Int
import EventListing.Proofs.LineMap.Splice
import EventListing.Proofs.Resolution.Lines
import EventListing.Proofs.Resolution.Rank

namespace EventListing

open LineMap Resolution
open Saturating (InRange least greatest)

/-! ## Ranges put into a text -/

/-- The length of a text with the ranges put into it. -/
def lengthWith (count : Int) (ranges : List LineRange) : Int :=
  count + (ranges.map LineRange.size).sum

theorem lengthWith_cons (count : Int) (r : LineRange) (ranges : List LineRange) :
    lengthWith count (r :: ranges) = lengthWith (count + r.size) ranges := by
  simp only [lengthWith, List.map_cons, List.sum_cons]
  omega

theorem le_lengthWith {ranges : List LineRange} (hproper : ∀ r ∈ ranges, r.Proper) (count : Int) :
    count ≤ lengthWith count ranges := by
  induction ranges generalizing count with
  | nil => simp [lengthWith]
  | cons r ranges ih =>
    have hr := hproper r List.mem_cons_self
    have hrest := ih (fun x hx => hproper x (List.mem_cons_of_mem _ hx)) (count + r.size)
    rw [lengthWith_cons]
    unfold LineRange.Proper at hr
    unfold LineRange.size at *
    omega

/-! ## Looking up around a range that is put in -/

namespace LineMap

variable {m : LineMap} {range : LineRange}

/-- The range in the numbers of a splice: the number of lines before it, and
its size. -/
theorem bounds_of_fits (hproper : range.Proper) (hfits : range.low ≤ m.len + 1) :
    ∃ n size : Nat, range.low = n + 1 ∧ range.size = size ∧ range.high = n + size ∧ n ≤ m.len := by
  obtain ⟨hlow, hhigh⟩ := hproper
  unfold LineRange.size
  exact ⟨(range.low - 1).toNat, (range.high - range.low + 1).toNat, by omega, by omega, by omega,
    by omega⟩

theorem len_insertSql (hproper : range.Proper) (hfits : range.low ≤ m.len + 1) (path : String) :
    ((m.insertSql (range.low - 1) path range.size.toNat).len : Int) = m.len + range.size := by
  obtain ⟨n, size, hn, hsize, -, -⟩ := bounds_of_fits hproper hfits
  unfold insertSql
  rw [len_insert, length_numbered]
  omega

theorem resolve?_insertSql_front (hproper : range.Proper) (hfits : range.low ≤ m.len + 1)
    (path : String) {line : Int} (hone : 1 ≤ line) (hline : line < range.low) :
    (m.insertSql (range.low - 1) path range.size.toNat).resolve? (line - 1) =
      m.resolve? (line - 1) := by
  obtain ⟨n, size, hn, -, -, hnle⟩ := bounds_of_fits hproper hfits
  obtain ⟨i, hi⟩ : ∃ i : Nat, line - 1 = i := ⟨(line - 1).toNat, by omega⟩
  unfold insertSql
  rw [hi, hn, Int.add_sub_cancel, resolve?_natCast, resolve?_natCast,
    getElem?_insert_of_lt hnle (by omega)]

theorem resolve?_insertSql_inside (hproper : range.Proper) (hfits : range.low ≤ m.len + 1)
    (path : String) {line : Int} (hline : range.contains line) :
    (m.insertSql (range.low - 1) path range.size.toNat).resolve? (line - 1) = none := by
  obtain ⟨n, size, hn, hsize, hhigh, hnle⟩ := bounds_of_fits hproper hfits
  rw [LineRange.contains_iff] at hline
  obtain ⟨i, hi⟩ : ∃ i : Nat, line - 1 = i := ⟨(line - 1).toNat, by omega⟩
  have hentries : (numbered path size true).length = size := length_numbered _ _ _
  have hget : (numbered path size true)[i - n]? = some ⟨path, i - n + 1, true⟩ :=
    getElem?_numbered (by omega)
  unfold insertSql
  rw [hi, hn, hsize, Int.add_sub_cancel, Int.toNat_natCast, resolve?_natCast,
    getElem?_insert_of_mem hnle (by omega) (by omega), hget]
  rfl

theorem resolve?_insertSql_behind (hproper : range.Proper) (hfits : range.low ≤ m.len + 1)
    (path : String) {line : Int} (hline : range.high < line) :
    (m.insertSql (range.low - 1) path range.size.toNat).resolve? (line - 1) =
      m.resolve? (line - range.size - 1) := by
  obtain ⟨n, size, hn, hsize, hhigh, hnle⟩ := bounds_of_fits hproper hfits
  obtain ⟨i, hi⟩ : ∃ i : Nat, line - range.size - 1 = i :=
    ⟨(line - range.size - 1).toNat, by omega⟩
  obtain ⟨j, hj⟩ : ∃ j : Nat, line - 1 = j := ⟨(line - 1).toNat, by omega⟩
  have hentries : (numbered path size true).length = size := length_numbered _ _ _
  have hmoved : j - size = i := by omega
  unfold insertSql
  rw [hi, hj, hn, hsize, Int.add_sub_cancel, Int.toNat_natCast, resolve?_natCast,
    resolve?_natCast, getElem?_insert_of_ge hnle (by omega), hentries, hmoved]

end LineMap

/-! ## The text with its ranges -/

/-- Each range begins at most one line behind the text, as long as the ranges
before it have made it. -/
def RangesFit : Int → List LineRange → Prop
  | _, [] => True
  | count, r :: rest => r.low ≤ count + 1 ∧ RangesFit (count + r.size) rest

/-- The map is the text of a file of `count` lines with the ranges put into
it: a line in one of the ranges was made by the precompiler, and any other one
is further down by the number of such lines before it. -/
structure Inserted (path : String) (count : Int) (ranges : List LineRange) (m : LineMap) :
    Prop where
  len_eq : (m.len : Int) = lengthWith count ranges
  resolve_eq : ∀ line : Int, 1 ≤ line → line ≤ m.len → m.resolve? (line - 1) =
    if ∃ r ∈ ranges, r.contains line then none
    else some ⟨path, (line - linesBefore ranges line).toNat, false⟩

namespace Inserted

theorem numbered (path : String) (count : Nat) :
    Inserted path count [] ⟨LineMap.numbered path count false⟩ := by
  constructor
  · simp [len, length_numbered, lengthWith]
  · intro line hone hle
    obtain ⟨i, rfl⟩ : ∃ i : Nat, line = i + 1 := ⟨(line - 1).toNat, by omega⟩
    have hi : i < count := by
      simp only [len, length_numbered] at hle
      omega
    rw [Int.add_sub_cancel, resolve?_natCast, getElem?_numbered hi]
    simp

/-- One more range behind the others. What stood before it stays where it is,
and what stood behind it moves down by its size. -/
theorem insertSql {path : String} {count : Int} {ranges : List LineRange} {m : LineMap}
    (h : Inserted path count ranges m) {range : LineRange} (hproper : range.Proper)
    (hbefore : ∀ r ∈ ranges, r.high < range.low) (hfits : range.low ≤ m.len + 1) :
    Inserted path count (ranges ++ [range])
      (m.insertSql (range.low - 1) path range.size.toNat) := by
  have hlen := len_insertSql hproper hfits path
  have hsize : range.size = range.high - range.low + 1 := rfl
  obtain ⟨hlow, hhigh⟩ := id hproper
  constructor
  · have := h.len_eq
    simp only [lengthWith, List.map_append, List.sum_append, List.map_cons, List.map_nil,
      List.sum_cons, List.sum_nil] at *
    omega
  · intro line hone hle
    have hcases : (∃ r ∈ ranges ++ [range], r.contains line) ↔
        (∃ r ∈ ranges, r.contains line) ∨ range.contains line := by
      simp [or_and_right, exists_or]
    have hclear : ∀ {l : Int}, range.low ≤ l → ¬ ∃ r ∈ ranges, r.contains l := by
      rintro l hl ⟨r, hr, hin⟩
      have := hbefore r hr
      rw [LineRange.contains_iff] at hin
      omega
    rw [linesBefore_append (fun r hr => Or.inl (hbefore r hr))]
    simp only [hcases]
    rcases Int.lt_or_le line range.low with hfront | hlow
    · have hout : ¬ range.contains line := by
        rw [LineRange.contains_iff]
        omega
      rw [resolve?_insertSql_front hproper hfits path hone hfront,
        h.resolve_eq line hone (by omega), linesBefore_singleton_of_le hproper (by omega)]
      simp only [hout, Bool.false_eq_true, or_false, Nat.add_zero]
    · rcases Int.lt_or_le range.high line with hbehind | hhigh
      · have hold := h.resolve_eq (line - range.size) (by omega) (by omega)
        have hsame : linesBefore ranges line = linesBefore ranges (line - range.size) := by
          have hhighs : ∀ r ∈ ranges, r.high < line - range.size := by
            intro r hr
            have := hbefore r hr
            omega
          rw [← linesBefore_of_lt hhighs (by omega) range.size.toNat]
          congr 1
          omega
        have hout : ¬ range.contains line := by
          rw [LineRange.contains_iff]
          omega
        rw [if_neg (hclear (by omega))] at hold
        rw [resolve?_insertSql_behind hproper hfits path hbehind, hold, hsame,
          linesBefore_singleton_of_lt hproper hbehind,
          if_neg (not_or.mpr ⟨hclear (by omega), hout⟩)]
        congr 2
        omega
      · have hin : range.contains line := by
          rw [LineRange.contains_iff]
          omega
        rw [resolve?_insertSql_inside hproper hfits path hin, if_pos (Or.inr hin)]

end Inserted

/-! ## One expansion -/

/-- The range that an expansion puts in. -/
def insertedRange (r : Record.Expansion) : LineRange :=
  ⟨r.rangeStart.getD 0, r.rangeEnd.getD 0, none⟩

/-- Where a range is in order, both of its bounds read. -/
theorem bounds_of_proper {first last : Option Int}
    (h : (⟨first.getD 0, last.getD 0, none⟩ : LineRange).Proper) :
    first = some (first.getD 0) ∧ last = some (last.getD 0) := by
  obtain ⟨hlow, hhigh⟩ := h
  cases first with
  | none => simp at hlow
  | some low =>
    cases last with
    | none =>
      simp only [Option.getD_some, Option.getD_none] at hlow hhigh
      omega
    | some high => exact ⟨rfl, rfl⟩

/-- Such a range in the numbers of an edit, which count from zero. -/
theorem Edit.range_of_proper {first last : Option Int}
    (hproper : (⟨first.getD 0, last.getD 0, none⟩ : LineRange).Proper)
    (hhigh : last.getD 0 ≤ greatest) :
    Edit.range first last = ⟨first.getD 0 - 1, last.getD 0 - 1, none⟩ := by
  obtain ⟨hfirst, hlast⟩ := bounds_of_proper hproper
  obtain ⟨hlow, hle⟩ := hproper
  unfold Edit.range
  rw [hfirst, hlast]
  simp only [Option.getD_some] at *
  rw [Saturating.sub_of_inRange, Saturating.sub_of_inRange] <;>
    simp only [InRange, least, greatest] at * <;> omega

theorem Edit.isPlaced_range {first last : Option Int}
    (hproper : (⟨first.getD 0, last.getD 0, none⟩ : LineRange).Proper)
    (hhigh : last.getD 0 ≤ greatest) : (Edit.range first last).isPlaced := by
  rw [Edit.range_of_proper hproper hhigh]
  obtain ⟨hlow, hle⟩ := hproper
  simp only [LineRange.isPlaced, Bool.and_eq_true, decide_eq_true_eq] at *
  omega

theorem Edit.len_range {first last : Option Int}
    (hproper : (⟨first.getD 0, last.getD 0, none⟩ : LineRange).Proper)
    (hhigh : last.getD 0 ≤ greatest) :
    (Edit.range first last).len = (⟨first.getD 0, last.getD 0, none⟩ : LineRange).size := by
  rw [Edit.range_of_proper hproper hhigh]
  obtain ⟨hlow, hle⟩ := hproper
  unfold LineRange.len LineRange.size
  simp only at *
  rw [Saturating.sub_of_inRange, Saturating.add_of_inRange] <;>
    simp only [InRange, least, greatest] at * <;> omega

namespace Resolution.Mapping

/-- The root begins one line before the text. -/
theorem positionIn_root {line : Int} (hline : 0 ≤ line) (hle : line ≤ greatest) :
    positionIn (-1) line = line := by
  have hinner : Saturating.add (-1) line = line - 1 := by
    rw [Saturating.add_of_inRange]
    · omega
    · simp only [InRange, least, greatest] at *
      omega
  unfold positionIn
  rw [hinner, Saturating.add_of_inRange]
  · omega
  · simp only [InRange, least, greatest] at *
    omega

/-- The edit of such an expansion puts its lines into the root, in front of the
line that had its first number. -/
theorem lines_applyEdit {step : Step} {file : FileNode} {m : Mapping} {r : Record.Expansion}
    (hfind : step.find? FileId.root = some file) (hstart : file.startsAt = some (-1))
    (hon : r.on = some FileId.root) (hproper : (insertedRange r).Proper)
    (hhigh : (insertedRange r).high ≤ greatest) :
    (applyEdit step file m (Edit.ofRecord r)).lines =
      m.lines.insertSql ((insertedRange r).low - 1) file.path (insertedRange r).size.toNat := by
  have hgenerated : (Edit.ofRecord r).generated =
      ⟨(insertedRange r).low - 1, (insertedRange r).high - 1, none⟩ :=
    Edit.range_of_proper hproper hhigh
  have hlen : (Edit.ofRecord r).generated.len = (insertedRange r).size :=
    Edit.len_range hproper hhigh
  have hplaced : (Edit.ofRecord r).generated.isPlaced := Edit.isPlaced_range hproper hhigh
  obtain ⟨hlow, hle⟩ := hproper
  have hposition : positionIn (-1) (Edit.ofRecord r).generated.low = (insertedRange r).low - 1 := by
    rw [hgenerated]
    simp only
    exact positionIn_root (by omega) (by omega)
  have htarget : (Edit.ofRecord r).target.bind step.find? = some file := by
    simp [Edit.ofRecord, hon, hfind]
  unfold applyEdit
  rw [if_pos hplaced, htarget]
  simp only [hstart, hposition, hlen]
  rfl

/-- The edits of a whole list of such expansions, one after the other. Each of
them leaves the ranges before it in place, since it begins behind them. -/
theorem inserted_foldl_applyEdit {step : Step} {file : FileNode} {count : Int}
    (hfind : step.find? FileId.root = some file) (hstart : file.startsAt = some (-1))
    {rest : List Record.Expansion} (hon : ∀ r ∈ rest, r.on = some FileId.root)
    (hproper : ∀ r ∈ rest, (insertedRange r).Proper) {done : List LineRange}
    (hordered : (done ++ rest.map insertedRange).Pairwise (·.high < ·.low)) {m : Mapping}
    (hfits : RangesFit m.lines.len (rest.map insertedRange))
    (hgreatest : lengthWith m.lines.len (rest.map insertedRange) ≤ greatest)
    (h : Inserted file.path count done m.lines) :
    Inserted file.path count (done ++ rest.map insertedRange)
      ((rest.map Edit.ofRecord).foldl (applyEdit step file) m).lines := by
  induction rest generalizing m done with
  | nil => simpa using h
  | cons r rest ih =>
    obtain ⟨hlow, hrestFits⟩ := hfits
    rw [List.map_cons, lengthWith_cons] at hgreatest
    have hr := hproper r List.mem_cons_self
    have hrest : ∀ x ∈ rest, (insertedRange x).Proper := fun x hx =>
      hproper x (List.mem_cons_of_mem _ hx)
    have hbefore : ∀ d ∈ done, d.high < (insertedRange r).low := by
      intro d hd
      exact (List.pairwise_append.mp hordered).2.2 d hd _ List.mem_cons_self
    have hsize : (insertedRange r).size = (insertedRange r).high - (insertedRange r).low + 1 := rfl
    have hhigh : (insertedRange r).high ≤ greatest := by
      have hle := @le_lengthWith (rest.map insertedRange) (by simpa using hrest)
        (m.lines.len + (insertedRange r).size)
      omega
    have hlines := @lines_applyEdit step file m r hfind hstart (hon r List.mem_cons_self) hr hhigh
    have hnext := h.insertSql hr hbefore hlow
    rw [← hlines] at hnext
    have hlen : ((applyEdit step file m (Edit.ofRecord r)).lines.len : Int) =
        m.lines.len + (insertedRange r).size := by
      rw [hlines, len_insertSql hr hlow]
    have hall := ih (fun x hx => hon x (List.mem_cons_of_mem _ hx)) hrest
      (by simpa using hordered) (by rw [hlen]; exact hrestFits) (by rw [hlen]; exact hgreatest)
      hnext
    simpa using hall

end Resolution.Mapping

end EventListing

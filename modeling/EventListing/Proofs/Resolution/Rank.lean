-- Correction is a rank. For ranges that lie apart and do not hold the line,
-- the sum that the pass by ranges subtracts counts the lines before it that
-- lie in the ranges. It cannot leave the numbers of 64 bits.
import Mathlib.Data.List.Induction
import EventListing.Resolution.Correction

namespace EventListing

open Saturating (InRange least greatest)

/-! ## Ranges apart -/

/-- No line lies in both ranges. -/
def LineRange.Apart (a b : LineRange) : Prop := a.high < b.low ∨ b.high < a.low

instance (a b : LineRange) : Decidable (a.Apart b) := inferInstanceAs (Decidable (_ ∨ _))

theorem LineRange.contains_iff {r : LineRange} {line : Int} :
    r.contains line ↔ r.low ≤ line ∧ line ≤ r.high := by
  simp [LineRange.contains]

/-- The range is not empty and begins at one or later. -/
def LineRange.Proper (r : LineRange) : Prop := 1 ≤ r.low ∧ r.low ≤ r.high

instance (r : LineRange) : Decidable r.Proper := inferInstanceAs (Decidable (_ ∧ _))

/-- The number of lines of a range whose bounds are in order. -/
def LineRange.size (r : LineRange) : Int := r.high - r.low + 1

namespace Resolution

/-! ## The lines in the ranges -/

/-- How many of the lines from one on, before `line`, lie in one of the
ranges. -/
def linesBefore (ranges : List LineRange) (line : Int) : Nat :=
  (List.range (line - 1).toNat).countP fun i : Nat =>
    ranges.any (·.contains ((i : Int) + 1))

@[simp] theorem linesBefore_nil (line : Int) : linesBefore [] line = 0 := by
  simp [linesBefore]

theorem linesBefore_le (ranges : List LineRange) (line : Int) :
    linesBefore ranges line ≤ (line - 1).toNat := by
  have h := @List.countP_le_length _ (fun i : Nat => ranges.any (·.contains ((i : Int) + 1)))
    (List.range (line - 1).toNat)
  rwa [List.length_range] at h

/-- One more range that lies apart adds its own lines. -/
theorem linesBefore_append {ranges : List LineRange} {range : LineRange}
    (hapart : ∀ r ∈ ranges, r.Apart range) (line : Int) :
    linesBefore (ranges ++ [range]) line = linesBefore ranges line + linesBefore [range] line := by
  unfold linesBefore
  simp only [List.any_append, List.any_cons, List.any_nil, Bool.or_false]
  induction (line - 1).toNat with
  | zero => rfl
  | succ n ih =>
    -- no line is counted twice
    have hone : ¬ (ranges.any (·.contains (n + 1)) ∧ range.contains (n + 1)) := by
      rintro ⟨hold, hnew⟩
      obtain ⟨r, hr, hin⟩ := List.any_eq_true.mp hold
      rw [LineRange.contains_iff] at hin hnew
      rcases hapart r hr with h | h <;> omega
    simp only [List.range_succ, List.countP_append, List.countP_singleton, ih]
    cases hold : ranges.any (·.contains (n + 1)) <;> cases hnew : range.contains (n + 1)
    · simp
    · simp
      omega
    · simp
      omega
    · exact absurd ⟨hold, hnew⟩ hone

/-- A single range counts from its low bound on, up to its high bound. -/
theorem linesBefore_singleton {range : LineRange} (hlow : 1 ≤ range.low) (line : Int) :
    linesBefore [range] line = (min (line - 1) range.high + 1 - range.low).toNat := by
  have hcount : ∀ n : Nat, (List.range n).countP (fun i : Nat => range.contains ((i : Int) + 1)) =
      (min (n : Int) range.high + 1 - range.low).toNat := by
    intro n
    induction n with
    | zero =>
      simp only [List.range_zero, List.countP_nil]
      omega
    | succ n ih =>
      simp only [List.range_succ, List.countP_append, List.countP_singleton, ih,
        LineRange.contains_iff]
      split <;> omega
  unfold linesBefore
  simp only [List.any_cons, List.any_nil, Bool.or_false]
  rw [hcount]
  omega

/-- A range that ends before the line counts with all its lines. -/
theorem linesBefore_singleton_of_lt {range : LineRange} {line : Int} (hproper : range.Proper)
    (hhigh : range.high < line) :
    linesBefore [range] line = (range.high + 1 - range.low).toNat := by
  rw [linesBefore_singleton hproper.1]
  omega

theorem linesBefore_singleton_of_le {range : LineRange} {line : Int} (hproper : range.Proper)
    (h : line ≤ range.low) : linesBefore [range] line = 0 := by
  rw [linesBefore_singleton hproper.1]
  omega

/-- Lines in none of the ranges do not count. -/
theorem linesBefore_of_out {ranges : List LineRange} {line : Int} (hone : 1 ≤ line) {more : Nat}
    (hout : ∀ n, line ≤ n → n < line + more → ∀ r ∈ ranges, ¬ r.contains n) :
    linesBefore ranges (line + more) = linesBefore ranges line := by
  induction more with
  | zero => simp
  | succ more ih =>
    have hnext : (line + (more + 1 : Nat) - 1).toNat = (line + more - 1).toNat + 1 := by omega
    have hlast : ranges.any (·.contains (((line + more - 1).toNat : Int) + 1)) = false := by
      rw [List.any_eq_false]
      exact hout _ (by omega) (by omega)
    rw [← ih fun n hlow hhigh => hout n hlow (by omega)]
    unfold linesBefore
    rw [hnext, List.range_succ, List.countP_append, List.countP_singleton, hlast]
    rfl

/-- Behind all ranges, the count stays the same. -/
theorem linesBefore_of_lt {ranges : List LineRange} {line : Int}
    (hhigh : ∀ r ∈ ranges, r.high < line) (hone : 1 ≤ line) (more : Nat) :
    linesBefore ranges (line + more) = linesBefore ranges line := by
  refine linesBefore_of_out hone ?_
  intro n hn _ r hr hin
  have := hhigh r hr
  rw [LineRange.contains_iff] at hin
  omega

/-! ## The sum of the shares -/

theorem shift_append (ranges : List LineRange) (range : LineRange) (line : Int) :
    shift (ranges ++ [range]) line = Saturating.add (shift ranges line) (shareOf line range) := by
  unfold shift
  rw [List.foldl_append]
  rfl

/-- The share of a range that does not hold the line is how many of its lines
are before it. -/
theorem shareOf_eq {range : LineRange} {line : Int} (hproper : range.Proper)
    (hout : ¬ range.contains line) (hline : line ≤ greatest) :
    shareOf line range = linesBefore [range] line := by
  unfold shareOf
  rw [if_neg hout]
  rw [LineRange.contains_iff] at hout
  have hbounds := hproper
  unfold LineRange.Proper at hbounds
  by_cases hafter : range.low ≤ line
  · have hlen : range.len = range.high - range.low + 1 := by
      unfold LineRange.len
      rw [Saturating.sub_of_inRange, Saturating.add_of_inRange] <;>
        simp only [InRange, least, greatest] at * <;> omega
    rw [if_pos (by simpa [LineRange.isAfter] using hafter), hlen,
      linesBefore_singleton_of_lt hproper (by omega)]
    omega
  · rw [if_neg (by simpa [LineRange.isAfter] using hafter),
      linesBefore_singleton_of_le hproper (by omega)]
    rfl

/-- The sum of the shares counts the lines before `line` that lie in the
ranges. The count of a part of the ranges is below the line, so no sum on the
way is cut off. -/
theorem shift_eq {ranges : List LineRange} {line : Int} (hproper : ∀ r ∈ ranges, r.Proper)
    (hapart : ranges.Pairwise LineRange.Apart) (hout : ∀ r ∈ ranges, ¬ r.contains line)
    (hline : line ≤ greatest) : shift ranges line = linesBefore ranges line := by
  induction ranges using List.reverseRecOn with
  | nil => rw [linesBefore_nil]; rfl
  | append_singleton ranges range ih =>
    rw [List.pairwise_append] at hapart
    obtain ⟨hapart, -, hlast⟩ := hapart
    have hbefore := ih (fun r hr => hproper r (List.mem_append_left _ hr)) hapart
      (fun r hr => hout r (List.mem_append_left _ hr))
    have hrange : range ∈ ranges ++ [range] := List.mem_append_right _ List.mem_cons_self
    have hsum := linesBefore_append (fun r hr => hlast r hr range List.mem_cons_self) line
    have hle := linesBefore_le (ranges ++ [range]) line
    rw [shift_append, hbefore, shareOf_eq (hproper range hrange) (hout range hrange) hline,
      Saturating.add_of_inRange]
    · omega
    · simp only [InRange, least, greatest] at *
      omega

/-- A line in none of the ranges loses the lines before it that lie in the
ranges. -/
theorem correctedLine_eq {ranges : List LineRange} {line : Int}
    (hproper : ∀ r ∈ ranges, r.Proper) (hapart : ranges.Pairwise LineRange.Apart)
    (hout : ∀ r ∈ ranges, ¬ r.contains line) (hline : InRange line) :
    correctedLine ranges line = line - linesBefore ranges line := by
  have hshift := shift_eq hproper hapart hout hline.2
  have hle := linesBefore_le ranges line
  unfold correctedLine
  rw [hshift]
  split
  · apply Saturating.sub_of_inRange
    simp only [InRange, least, greatest] at *
    omega
  · omega

end Resolution

end EventListing

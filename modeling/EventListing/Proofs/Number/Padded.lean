-- Numerals with zeros in front. Read back, such a numeral gives the number that was
-- written, whatever the width.
import Mathlib.Algebra.Group.Nat.Defs
import EventListing.Number.Decimal
import EventListing.Text.Blank

namespace EventListing.Decimal

open Text

/-! ## Digits -/

theorem digit?_of_isDigit {c : Char} (h : c.isDigit) :
    digit? c = some (c.toNat - '0'.toNat) := by
  have hrange : '0' ≤ c ∧ c ≤ '9' := by
    simp only [Char.isDigit, Bool.and_eq_true, decide_eq_true_eq] at h
    exact h
  exact if_pos hrange

theorem foldlM_of_isDigit {cs : List Char} (h : ∀ c ∈ cs, c.isDigit) (n : Nat) :
    cs.foldlM (fun n c => (digit? c).map (10 * n + ·)) n = some (Nat.ofDigitChars 10 cs n) := by
  induction cs generalizing n with
  | nil => rfl
  | cons c cs ih =>
    rw [List.foldlM_cons, digit?_of_isDigit (h c List.mem_cons_self), Nat.ofDigitChars_cons]
    exact ih (fun d hd => h d (List.mem_cons_of_mem _ hd)) _

/-- Digits alone read as the number that they write. -/
theorem digits?_of_isDigit {cs : List Char} (hne : cs ≠ []) (h : ∀ c ∈ cs, c.isDigit) :
    digits? cs = some (Nat.ofDigitChars 10 cs 0) := by
  cases cs with
  | nil => exact absurd rfl hne
  | cons c cs => exact foldlM_of_isDigit h 0

/-- A sign is no digit, so either reader takes digits as they are. -/
theorem natural?_of_isDigit {cs : List Char} (hne : cs ≠ []) (h : ∀ c ∈ cs, c.isDigit) :
    natural? cs = some (Nat.ofDigitChars 10 cs 0) := by
  unfold natural?
  split
  · exact absurd (h '+' List.mem_cons_self) (by decide)
  · exact digits?_of_isDigit hne h

theorem integer?_of_isDigit {cs : List Char} (hne : cs ≠ []) (h : ∀ c ∈ cs, c.isDigit) :
    integer? cs = some (Nat.ofDigitChars 10 cs 0 : Int) := by
  unfold integer?
  split
  · exact absurd (h '-' List.mem_cons_self) (by decide)
  · rw [natural?_of_isDigit hne h]
    rfl

theorem isBlank_of_isDigit {c : Char} (h : c.isDigit) : isBlank c = false := by
  have hrange : 48 ≤ c.toNat ∧ c.toNat ≤ 57 := by
    simp only [Char.isDigit, Bool.and_eq_true, decide_eq_true_eq] at h
    exact h
  simp only [isBlank, inRanges, blankRanges, List.any_cons, List.any_nil, Bool.or_false,
    Bool.or_eq_false_iff, Bool.and_eq_false_iff, decide_eq_false_iff_not]
  omega

/-! ## Zeros in front -/

/-- The number in decimal, with zeros in front up to the width. -/
def padded (width n : Nat) : List Char := (Nat.toDigits 10 n).leftpad width '0'

theorem padded_ne_nil (width n : Nat) : padded width n ≠ [] :=
  List.append_ne_nil_of_right_ne_nil _ Nat.toDigits_ne_nil

theorem isDigit_of_mem_padded {width n : Nat} : ∀ c ∈ padded width n, c.isDigit := by
  intro c hc
  rcases List.mem_append.mp hc with hzero | hdigit
  · rw [(List.mem_replicate.mp hzero).2]
    decide
  · exact Nat.isDigit_of_mem_toDigits (by decide) (by decide) hdigit

theorem ofDigitChars_replicate (count : Nat) :
    Nat.ofDigitChars 10 (List.replicate count '0') 0 = 0 := by
  induction count with
  | zero => rfl
  | succ count ih => rwa [List.replicate_succ, Nat.ofDigitChars_cons]

/-- Zeros in front do not change the number. -/
theorem ofDigitChars_padded (width n : Nat) : Nat.ofDigitChars 10 (padded width n) 0 = n := by
  unfold padded List.leftpad
  rw [Nat.ofDigitChars_append, ofDigitChars_replicate]
  exact Nat.ofDigitChars_toDigits (by decide) (by decide)

theorem padded_injective (width : Nat) : Function.Injective (padded width) := by
  intro m n h
  rw [← ofDigitChars_padded width m, h, ofDigitChars_padded]

/-- A number that fits fills the width exactly. -/
theorem length_padded {width n : Nat} (hpos : 0 < width) (h : n < 10 ^ width) :
    (padded width n).length = width := by
  have hlength := (Nat.length_toDigits_le_iff (by decide) hpos).mpr h
  unfold padded
  rw [List.length_leftpad, Nat.max_eq_left hlength]

theorem word32?_padded {n : Nat} (h : n < 2 ^ 32) (width : Nat) :
    word32? (padded width n) = some n := by
  unfold word32?
  rw [natural?_of_isDigit (padded_ne_nil _ _) isDigit_of_mem_padded, ofDigitChars_padded]
  exact Option.filter_some_pos (by simpa using h)

theorem word64?_padded {n : Nat} (h : n < 2 ^ 32) (width : Nat) :
    word64? (padded width n) = some (n : Int) := by
  have hrange : Saturating.InRange (n : Int) := by
    simp only [Saturating.InRange, Saturating.least, Saturating.greatest]
    omega
  unfold word64?
  rw [integer?_of_isDigit (padded_ne_nil _ _) isDigit_of_mem_padded, ofDigitChars_padded]
  exact Option.filter_some_pos (by simpa using hrange)

end EventListing.Decimal

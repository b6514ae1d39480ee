-- Which texts are numerals, and of which numbers. A numeral has one or more digits
-- and at most one sign before them. A reader takes exactly the numerals of its own
-- numbers, so what it reads is the number that the digits write.
import EventListing.Proofs.Number.Padded

namespace EventListing.Decimal

/-! ## Digits -/

/-- One or more digits, and nothing else. -/
def IsDigits (cs : List Char) : Prop := cs ≠ [] ∧ ∀ c ∈ cs, c.isDigit

/-- The number that digits write. -/
def valueOf (digits : List Char) : Nat := Nat.ofDigitChars 10 digits 0

theorem isDigit_of_digit? {c : Char} {n : Nat} (h : digit? c = some n) : c.isDigit := by
  unfold digit? at h
  split at h
  · rename_i hrange
    simp only [Char.isDigit, Bool.and_eq_true, decide_eq_true_eq]
    exact hrange
  · cases h

theorem isDigit_of_foldlM {cs : List Char} {m n : Nat}
    (h : cs.foldlM (fun n c => (digit? c).map (10 * n + ·)) m = some n) :
    ∀ c ∈ cs, c.isDigit := by
  induction cs generalizing m with
  | nil => exact List.forall_mem_nil _
  | cons c cs ih =>
    rw [List.foldlM_cons] at h
    obtain ⟨next, hnext, hrest⟩ := Option.bind_eq_some_iff.mp h
    obtain ⟨d, hd, -⟩ := Option.map_eq_some_iff.mp hnext
    exact List.forall_mem_cons.mpr ⟨isDigit_of_digit? hd, ih hrest⟩

theorem digits?_eq_some_iff {cs : List Char} {n : Nat} :
    digits? cs = some n ↔ IsDigits cs ∧ valueOf cs = n := by
  constructor
  · intro h
    cases cs with
    | nil => cases h
    | cons c cs =>
      have hdigits : IsDigits (c :: cs) := ⟨List.cons_ne_nil _ _, isDigit_of_foldlM h⟩
      rw [digits?_of_isDigit hdigits.1 hdigits.2] at h
      exact ⟨hdigits, Option.some.inj h⟩
  · rintro ⟨hdigits, rfl⟩
    exact digits?_of_isDigit hdigits.1 hdigits.2

/-! ## Signs -/

/-- The text writes the number. -/
inductive Numeral : List Char → Int → Prop
  | plain {digits : List Char} : IsDigits digits → Numeral digits (valueOf digits)
  | plus {digits : List Char} : IsDigits digits → Numeral ('+' :: digits) (valueOf digits)
  | minus {digits : List Char} : IsDigits digits → Numeral ('-' :: digits) (-valueOf digits)

/-- No sign is a digit. -/
theorem IsDigits.ne_sign {c : Char} {cs : List Char} (h : IsDigits (c :: cs)) :
    c ≠ '+' ∧ c ≠ '-' := by
  have hdigit := h.2 c List.mem_cons_self
  refine ⟨?_, ?_⟩ <;> rintro rfl <;> exact absurd hdigit (by decide)

theorem natural?_eq_some_iff {cs : List Char} {n : Nat} :
    natural? cs = some n ↔ Numeral cs n ∧ cs.head? ≠ some '-' := by
  constructor
  · intro h
    unfold natural? at h
    split at h
    · obtain ⟨hdigits, rfl⟩ := digits?_eq_some_iff.mp h
      exact ⟨.plus hdigits, by simp⟩
    · obtain ⟨hdigits, rfl⟩ := digits?_eq_some_iff.mp h
      refine ⟨.plain hdigits, ?_⟩
      cases cs with
      | nil => exact absurd rfl hdigits.1
      | cons c cs => simpa using hdigits.ne_sign.2
  · rintro ⟨hnumeral, hsign⟩
    generalize hm : (n : Int) = m at hnumeral
    cases hnumeral with
    | plain hdigits =>
      rw [Int.ofNat_inj.mp hm]
      exact natural?_of_isDigit hdigits.1 hdigits.2
    | plus hdigits =>
      rw [Int.ofNat_inj.mp hm]
      exact digits?_of_isDigit hdigits.1 hdigits.2
    | minus hdigits => exact absurd rfl hsign

theorem integer?_eq_some_iff {cs : List Char} {n : Int} :
    integer? cs = some n ↔ Numeral cs n := by
  constructor
  · intro h
    unfold integer? at h
    split at h
    · obtain ⟨m, hm, rfl⟩ := Option.map_eq_some_iff.mp h
      obtain ⟨hdigits, rfl⟩ := digits?_eq_some_iff.mp hm
      exact .minus hdigits
    · obtain ⟨m, hm, rfl⟩ := Option.map_eq_some_iff.mp h
      exact (natural?_eq_some_iff.mp hm).1
  · intro h
    cases h with
    | plain hdigits => exact integer?_of_isDigit hdigits.1 hdigits.2
    | plus hdigits =>
      exact congrArg (Option.map Int.ofNat) (digits?_of_isDigit hdigits.1 hdigits.2)
    | minus hdigits =>
      exact congrArg (Option.map fun n => -Int.ofNat n) (digits?_of_isDigit hdigits.1 hdigits.2)

/-! ## The two sizes -/

/-- The sizes of the numbers in a listing. -/
inductive Size where
  /-- 32 bits without a sign. -/
  | word32
  /-- 64 bits with a sign. -/
  | word64
deriving DecidableEq, Repr

namespace Size

/-- The text writes a number of the size. A number without a sign has no minus
before it, not even zero. -/
def Writes : Size → List Char → Int → Prop
  | word32, cs, n => Numeral cs n ∧ cs.head? ≠ some '-' ∧ n < 4294967296
  | word64, cs, n => Numeral cs n ∧ Saturating.InRange n

/-- The number of the size that a text writes. -/
def read? : Size → List Char → Option Int
  | word32, cs => (word32? cs).map Nat.cast
  | word64, cs => word64? cs

/-- A reader reads exactly the numerals of its size. -/
theorem read?_eq_some_iff {size : Size} {cs : List Char} {n : Int} :
    size.read? cs = some n ↔ size.Writes cs n := by
  cases size with
  | word32 =>
    unfold read? Writes word32?
    rw [Option.map_eq_some_iff]
    simp only [Option.filter_eq_some_iff, natural?_eq_some_iff, decide_eq_true_eq]
    constructor
    · rintro ⟨m, ⟨⟨hnumeral, hsign⟩, hfits⟩, rfl⟩
      exact ⟨hnumeral, hsign, by omega⟩
    · rintro ⟨hnumeral, hsign, hfits⟩
      obtain ⟨m, rfl⟩ : ∃ m : Nat, (m : Int) = n := by
        cases hnumeral with
        | plain | plus => exact ⟨_, rfl⟩
        | minus => exact absurd rfl hsign
      exact ⟨m, ⟨⟨hnumeral, hsign⟩, by omega⟩, rfl⟩
  | word64 =>
    unfold read? Writes word64?
    rw [Option.filter_eq_some_iff, integer?_eq_some_iff, decide_eq_true_eq]

/-- Nothing writes no number. -/
theorem Writes.ne_nil {size : Size} {cs : List Char} {n : Int} (h : size.Writes cs n) :
    cs ≠ [] := by
  rintro rfl
  rw [← read?_eq_some_iff] at h
  cases size <;> cases h

end Size

end EventListing.Decimal

-- Text in small letters, and text inside another text. In ASCII each character has its
-- small letter by itself, so that the text may be taken apart, and a text with capitals
-- never occurs in what comes out.
import Mathlib
import EventListing.Text.Case
import EventListing.Text.Search

namespace EventListing.Text

/-! ## The first occurrence -/

theorem removeFirst_append (needle rest : List Char) :
    removeFirst needle (needle ++ rest) = rest := by
  cases needle with
  | nil => cases rest <;> rfl
  | cons c needle =>
    have hprefix : (c :: needle).isPrefixOf (c :: (needle ++ rest)) = true := by
      rw [List.isPrefixOf_iff_prefix]
      exact List.prefix_append (c :: needle) rest
    rw [List.cons_append, removeFirst, if_pos hprefix, ← List.cons_append, List.drop_left]

theorem removeFirst_of_not_infix {needle text : List Char} (h : ¬ needle <:+: text) :
    removeFirst needle text = text := by
  induction text with
  | nil => rfl
  | cons c text ih =>
    rw [List.infix_cons_iff, not_or] at h
    rw [removeFirst, if_neg (mt List.isPrefixOf_iff_prefix.mp h.1), ih h.2]

/-! ## Small letters -/

/-- All characters of the text are ASCII. -/
def IsAscii (cs : List Char) : Prop := ∀ c ∈ cs, c.toNat < 128

-- By the characters of the text. Left alone, Lean tries all characters there are.
instance (cs : List Char) : Decidable (IsAscii cs) := List.decidableBAll _ cs

theorem isAscii_append {xs ys : List Char} : IsAscii (xs ++ ys) ↔ IsAscii xs ∧ IsAscii ys :=
  List.forall_mem_append

/-- No character of the text is a capital of ASCII. -/
def NoCapital (cs : List Char) : Prop := ∀ c ∈ cs, ¬ c.isUpper

instance (cs : List Char) : Decidable (NoCapital cs) := List.decidableBAll _ cs

/-- Neither of the two characters with a rule of their own is ASCII. -/
theorem smallForm_of_ascii {c : Char} (h : c.toNat < 128) (before after : List Char) :
    smallForm before c after = [c.toLower] := by
  have hsigma : c ≠ 'Σ' := by
    rintro rfl
    revert h
    decide
  have hdotted : c ≠ 'İ' := by
    rintro rfl
    revert h
    decide
  rw [smallForm, if_neg hsigma, if_neg hdotted, smallLetter, if_pos h]

theorem lowercaseAfter_of_ascii {cs : List Char} (h : IsAscii cs) (before : List Char) :
    lowercaseAfter before cs = cs.map Char.toLower := by
  induction cs generalizing before with
  | nil => rfl
  | cons c cs ih =>
    obtain ⟨hc, hcs⟩ := List.forall_mem_cons.mp h
    rw [lowercaseAfter, smallForm_of_ascii hc, ih hcs, List.map_cons, List.singleton_append]

theorem lowercase_of_ascii {cs : List Char} (h : IsAscii cs) :
    lowercase cs = cs.map Char.toLower := lowercaseAfter_of_ascii h []

theorem NoCapital.map_toLower {cs : List Char} (h : NoCapital cs) :
    cs.map Char.toLower = cs := by
  calc
    cs.map Char.toLower = cs.map id :=
      List.map_congr_left fun c hc => Char.toLower_eq_of_not_isUpper (h c hc)
    _ = cs := List.map_id cs

theorem noCapital_map_toLower (cs : List Char) : NoCapital (cs.map Char.toLower) := by
  intro c hc
  obtain ⟨d, -, rfl⟩ := List.mem_map.mp hc
  simp

theorem NoCapital.of_subset {part whole : List Char} (h : NoCapital whole)
    (hpart : part ⊆ whole) : NoCapital part := fun c hc => h c (hpart hc)

theorem toLower_eq_slash_iff (c : Char) : c.toLower = '/' ↔ c = '/' := by
  refine ⟨fun h => ?_, by rintro rfl; rfl⟩
  have hletter : c.isAlpha = false := by
    rw [← Char.isLower_toLower_eq_isAlpha, h]
    rfl
  have hcapital : ¬ c.isUpper := by
    intro hc
    simp [Char.isAlpha, hc] at hletter
  rwa [Char.toLower_eq_of_not_isUpper hcapital] at h

end EventListing.Text

-- Taking characters off the ends of a text. What is taken off is as if it had not
-- been there, and a text that ends in other characters stays as it is.
import Mathlib.Data.List.DropRight
import EventListing.Text.Blank

namespace EventListing.Text

/-! ## The end -/

theorem dropEndWhile_eq (p : Char → Bool) (cs : List Char) :
    dropEndWhile p cs = cs.rdropWhile p := rfl

/-- What is taken off the end is as if it had not been there. -/
theorem dropEndWhile_append {p : Char → Bool} {more : List Char} (h : ∀ c ∈ more, p c)
    (cs : List Char) : dropEndWhile p (cs ++ more) = dropEndWhile p cs := by
  induction more using List.reverseRecOn with
  | nil => rw [List.append_nil]
  | append_singleton more c ih =>
    have hlast : p c := h c (by simp)
    rw [← List.append_assoc, dropEndWhile_eq, List.rdropWhile_concat_pos _ _ _ hlast]
    exact ih fun d hd => h d (List.mem_append_left _ hd)

/-- A text that does not end with such a character stays as it is. -/
theorem dropEndWhile_eq_self {p : Char → Bool} {cs : List Char}
    (h : ∀ c, cs.getLast? = some c → ¬ p c) : dropEndWhile p cs = cs := by
  rw [dropEndWhile_eq, List.rdropWhile_eq_self_iff]
  exact fun hne => h _ (List.getLast?_eq_some_getLast hne)

/-! ## Blank texts -/

theorem isBlankText_append (xs ys : List Char) :
    isBlankText (xs ++ ys) = (isBlankText xs && isBlankText ys) := List.all_append

theorem isBlankText_replicate {c : Char} (h : isBlank c) (count : Nat) :
    isBlankText (List.replicate count c) := by
  rw [isBlankText, List.all_eq_true]
  intro d hd
  rwa [(List.mem_replicate.mp hd).2]

/-! ## Both ends -/

/-- The text has no blank at either end. -/
def Trimmed (cs : List Char) : Prop :=
  cs.head?.any isBlank = false ∧ cs.getLast?.any isBlank = false

instance (cs : List Char) : Decidable (Trimmed cs) :=
  inferInstanceAs (Decidable (_ ∧ _))

theorem Trimmed.trim_eq {cs : List Char} (h : Trimmed cs) : trim cs = cs := by
  have hfront : cs.dropWhile isBlank = cs := by
    cases cs with
    | nil => rfl
    | cons c cs => exact List.dropWhile_cons_of_neg (Bool.eq_false_iff.mp h.1)
  unfold trim trimEnd
  rw [hfront]
  refine dropEndWhile_eq_self fun c hc => ?_
  have hlast := h.2
  rw [hc] at hlast
  exact Bool.eq_false_iff.mp hlast

theorem trimmed_of_no_blank {cs : List Char} (h : ∀ c ∈ cs, isBlank c = false) : Trimmed cs := by
  have hany : ∀ o : Option Char, (∀ c, o = some c → c ∈ cs) → o.any isBlank = false := by
    rintro (_ | c) ho
    · rfl
    · exact h c (ho c rfl)
  exact ⟨hany _ fun _ => List.mem_of_head?, hany _ fun _ => List.mem_of_getLast?⟩

/-- Blanks at the end are trimmed away. -/
theorem trim_append {more : List Char} (h : isBlankText more) (cs : List Char) :
    trim (cs ++ more) = trim cs := by
  rw [isBlankText, List.all_eq_true] at h
  unfold trim trimEnd
  rw [List.dropWhile_append]
  split
  · rename_i hnil
    rw [List.isEmpty_iff.mp hnil, List.dropWhile_eq_nil_iff.mpr h]
  · exact dropEndWhile_append h _

end EventListing.Text

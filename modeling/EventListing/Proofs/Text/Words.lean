-- The words of a text: the pieces between its spaces, without the empty ones. A
-- separator inside a text cuts the segments in two, and everything about words
-- follows from that.
import EventListing.Line

namespace EventListing

namespace Text

/-! ## Segments -/

theorem addToSegments_append {parts : List (List Char)} (hne : parts ≠ []) (sep c : Char)
    (more : List (List Char)) :
    addToSegments sep c (parts ++ more) = addToSegments sep c parts ++ more := by
  cases parts with
  | nil => exact absurd rfl hne
  | cons part rest =>
    unfold addToSegments
    split <;> rfl

/-- The segments before a separator, and those behind it. -/
theorem segments_append_sep (sep : Char) (xs ys : List Char) :
    segments sep (xs ++ sep :: ys) = segments sep xs ++ segments sep ys := by
  induction xs with
  | nil => exact if_pos rfl
  | cons c xs ih =>
    rw [List.cons_append, segments_cons, segments_cons, ih,
      addToSegments_append (segments_ne_nil sep xs)]

/-- A text without the separator is one segment. -/
theorem segments_of_not_mem {sep : Char} {cs : List Char} (h : sep ∉ cs) :
    segments sep cs = [cs] := by
  induction cs with
  | nil => rfl
  | cons c cs ih =>
    rw [List.mem_cons, not_or] at h
    rw [segments_cons, ih h.2]
    exact if_neg (Ne.symm h.1)

theorem segments_eq_splitOn (sep : Char) (cs : List Char) : segments sep cs = cs.splitOn sep := by
  induction cs with
  | nil => rfl
  | cons c cs ih =>
    rw [segments_cons, ih, List.splitOn_cons_eq_if_modifyHead]
    unfold addToSegments
    rcases hrest : cs.splitOn sep with _ | ⟨part, rest⟩
    · exact absurd hrest (List.splitOn_ne_nil sep cs)
    · simp

/-- Parts without the separator are the segments of what they are joined to. -/
theorem segments_join {sep : Char} {parts : List (List Char)} (hne : parts ≠ [])
    (h : ∀ part ∈ parts, sep ∉ part) : segments sep (join sep parts) = parts := by
  rw [segments_eq_splitOn]
  exact List.splitOn_intercalate sep h hne

/-! ## Words -/

/-- The words of a text. -/
def words (cs : List Char) : List (List Char) := (segments ' ' cs).filter (!·.isEmpty)

theorem words_append_space (xs ys : List Char) :
    words (xs ++ ' ' :: ys) = words xs ++ words ys := by
  unfold words
  rw [segments_append_sep, List.filter_append]

theorem words_of_not_mem {cs : List Char} (hne : cs ≠ []) (h : ' ' ∉ cs) : words cs = [cs] := by
  unfold words
  rw [segments_of_not_mem h]
  simp [hne]

/-- Spaces at the end make no words. -/
theorem words_append_spaces (cs : List Char) (count : Nat) :
    words (cs ++ List.replicate count ' ') = words cs := by
  induction count generalizing cs with
  | zero => rw [List.replicate_zero, List.append_nil]
  | succ count ih =>
    rw [List.replicate_succ, words_append_space, ← List.nil_append (List.replicate count ' '), ih]
    exact List.append_nil _

end Text

/-- The tokens of a line are its words. -/
theorem Line.tokens_eq (line : Line) : line.tokens = Text.words line.chars := rfl

end EventListing

-- Cutting text at a separator and putting the segments together again.
-- Main statement: joining the segments of a text gives the text back.
namespace EventListing.Text

/-- One more character in front of the segments: a separator opens a new
one, any other character goes to the first one. -/
def addToSegments (sep c : Char) (parts : List (List Char)) : List (List Char) :=
  if c = sep then [] :: parts
  else match parts with
    | [] => [[c]]
    | part :: rest => (c :: part) :: rest

/-- The segments between the separators. A text without a separator is one
segment. -/
def segments (sep : Char) (cs : List Char) : List (List Char) :=
  cs.foldr (addToSegments sep) [[]]

/-- The segments with a separator between each two. -/
def join (sep : Char) (parts : List (List Char)) : List Char :=
  List.intercalate [sep] parts

theorem segments_nil (sep : Char) : segments sep [] = [[]] := rfl

theorem segments_cons (sep c : Char) (cs : List Char) :
    segments sep (c :: cs) = addToSegments sep c (segments sep cs) := rfl

theorem segments_ne_nil (sep : Char) (cs : List Char) : segments sep cs ≠ [] := by
  cases cs with
  | nil => simp [segments_nil]
  | cons c cs =>
    rw [segments_cons]
    unfold addToSegments
    split
    · simp
    · split <;> simp

/-- Joining the segments of a text gives the text back. -/
theorem join_segments (sep : Char) (cs : List Char) : join sep (segments sep cs) = cs := by
  induction cs with
  | nil => rfl
  | cons c cs ih =>
    rw [segments_cons]
    unfold addToSegments
    rcases h : segments sep cs with _ | ⟨part, rest⟩
    · exact absurd h (segments_ne_nil sep cs)
    · rw [h] at ih
      by_cases hc : c = sep
      · subst hc
        rw [if_pos rfl, ← ih]
        simp [join, List.intercalate]
      · rw [if_neg hc, ← ih]
        cases rest <;> simp [join, List.intercalate]

end EventListing.Text

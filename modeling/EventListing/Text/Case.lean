-- Small letters. Each capital has one small letter, with two exceptions: the
-- capital I with a dot keeps its dot as a mark of its own, and the capital
-- sigma has a second form at the end of a word.
import EventListing.Text.Case.Tables

namespace EventListing.Text

/-- A capital, small or title letter. -/
def isCased (c : Char) : Bool := inRanges casedRanges c

/-- A character passed over in the search for the end of a word. -/
def isCaseIgnorable (c : Char) : Bool := inRanges caseIgnorableRanges c

/-- The one small letter of a capital. Other characters stay. -/
def smallLetter (c : Char) : Char :=
  if c.toNat < 128 then c.toLower
  else
    let inRun := fun ((first, last, step, _) : Nat × Nat × Nat × Nat) =>
      first ≤ c.toNat && c.toNat ≤ last && (c.toNat - first) % step == 0
    match capitalRuns.find? inRun with
    | some (first, _, _, small) => Char.ofNat (small + (c.toNat - first))
    | none => c

/-- The text opens with a letter, once the characters to pass over are gone. -/
def opensWithLetter (cs : List Char) : Bool :=
  match cs.dropWhile isCaseIgnorable with
  | [] => false
  | c :: _ => isCased c

/-- The small form of `c` between the text before it, read backwards, and
the text after it. A sigma ends a word when a letter stands before it and
none after it. -/
def smallForm (before : List Char) (c : Char) (after : List Char) : List Char :=
  if c = 'Σ' then
    if opensWithLetter before && !opensWithLetter after then ['ς'] else ['σ']
  else if c = 'İ' then ['i', '\u0307']
  else [smallLetter c]

/-- The small forms of the characters after `before`. -/
def lowercaseAfter (before : List Char) : List Char → List Char
  | [] => []
  | c :: after => smallForm before c after ++ lowercaseAfter (c :: before) after

/-- The text in small letters. -/
def lowercase (cs : List Char) : List Char := lowercaseAfter [] cs

end EventListing.Text

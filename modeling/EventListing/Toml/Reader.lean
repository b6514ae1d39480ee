-- Readers take something off the front of a text. The small parts of a TOML
-- document are read here: blanks, line ends and comments.
namespace EventListing.Toml

/-- What was read and the text after it, or `none` when the text begins with
something else. -/
abbrev Reader (α : Type) := List Char → Option (α × List Char)

namespace Reader

/-- The reader as often as it reads, at most `limit` times. -/
def manyUpTo {α : Type} (read : Reader α) : Nat → List Char → List α × List Char
  | 0, cs => ([], cs)
  | limit + 1, cs =>
    match read cs with
    | none => ([], cs)
    | some (a, rest) =>
      let (more, rest) := manyUpTo read limit rest
      (a :: more, rest)

/-- The reader as often as it reads. A reader that always takes a character
can read no more often than the text has characters. -/
def many {α : Type} (read : Reader α) (cs : List Char) : List α × List Char :=
  manyUpTo read cs.length cs

/-- A character of a class. -/
def one (p : Char → Bool) : Reader Char
  | [] => none
  | c :: rest => if p c then some (c, rest) else none

/-- The given text. -/
def exactly (text : String) : Reader Unit := fun cs =>
  if text.toList.isPrefixOf cs then some ((), cs.drop text.length) else none

/-- The first reader, or the second when the first does not read. -/
def orElse {α : Type} (a b : Reader α) : Reader α := fun cs => (a cs).or (b cs)

end Reader

/-! ## Characters -/

/-- A character that may stand in a comment or between quotes: a tab or no
control. -/
def isTextChar (c : Char) : Bool := c == '\t' || (32 ≤ c.toNat && c.toNat ≠ 127)

/-- A blank within a line. -/
def isSpace (c : Char) : Bool := c == ' ' || c == '\t'

def isDigit (c : Char) : Bool := '0' ≤ c && c ≤ '9'

def isHexDigit (c : Char) : Bool := isDigit c || ('a' ≤ c && c ≤ 'f') || ('A' ≤ c && c ≤ 'F')

/-! ## Blanks, line ends and comments -/

def skipSpaces (cs : List Char) : List Char := cs.dropWhile isSpace

/-- The text after a line feed, which may have a carriage return before
it. -/
def newLine? : List Char → Option (List Char)
  | '\n' :: rest => some rest
  | '\r' :: '\n' :: rest => some rest
  | _ => none

/-- The text after the comment at its front, if there is one. -/
def skipComment : List Char → List Char
  | '#' :: rest => rest.dropWhile isTextChar
  | cs => cs

/-- The text after the end of a statement: blanks, a comment, and then a new
line or the end of the document. -/
def endOfLine? (cs : List Char) : Option (List Char) :=
  match skipComment (skipSpaces cs) with
  | [] => some []
  | rest => newLine? rest

/-- The text after a new line, before which a comment may stand. -/
def blankLine : Reader Unit := fun cs =>
  (newLine? (skipComment (skipSpaces cs))).map fun rest => ((), rest)

/-- The text after the blanks, comments and new lines between two items. -/
def skipGap (cs : List Char) : List Char := skipSpaces (Reader.many blankLine cs).2

end EventListing.Toml

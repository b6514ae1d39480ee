-- Documents of objects, lists, texts and whole numbers, and how they are
-- printed: two spaces for each level, one field or item to a line, and
-- nothing between the brackets of an empty object or list.
namespace EventListing

inductive Json where
  | text (s : String)
  | number (n : Int)
  | list (items : List Json)
  /-- The fields in the order in which they are printed. -/
  | object (fields : List (String × Json))

namespace Json

/-! ## Texts -/

/-- A control character without a letter of its own, by its number. -/
def controlEscape (c : Char) : List Char :=
  let digits := Nat.toDigits 16 c.toNat
  ['\\', 'u'] ++ List.replicate (4 - digits.length) '0' ++ digits

/-- A character as it stands between the quotes. -/
def escapeChar (c : Char) : List Char :=
  match c with
  | '"' => ['\\', '"']
  | '\\' => ['\\', '\\']
  | '\x08' => ['\\', 'b']
  | '\t' => ['\\', 't']
  | '\n' => ['\\', 'n']
  | '\x0c' => ['\\', 'f']
  | '\r' => ['\\', 'r']
  | c => if c.toNat < 32 then controlEscape c else [c]

/-- A text between quotes. -/
def quote (s : String) : List Char := '"' :: s.toList.flatMap escapeChar ++ ['"']

/-! ## Documents -/

/-- A new line at a level. -/
def newLine (level : Nat) : List Char := '\n' :: List.replicate (2 * level) ' '

/-- The printed items between brackets, each on a line of its own. -/
def block (opening closing : Char) (level : Nat) (items : List (List Char)) : List Char :=
  if items.isEmpty then [opening, closing]
  else
    let lines := items.map (newLine (level + 1) ++ ·)
    opening :: List.intercalate [','] lines ++ newLine level ++ [closing]

mutual

/-- A document as it is printed at a level. -/
def render (level : Nat) : Json → List Char
  | text s => quote s
  | number n => (toString n).toList
  | list items => block '[' ']' level (renderItems (level + 1) items)
  | object fields => block '\x7b' '\x7d' level (renderFields (level + 1) fields)

def renderItems (level : Nat) : List Json → List (List Char)
  | [] => []
  | item :: rest => render level item :: renderItems level rest

def renderFields (level : Nat) : List (String × Json) → List (List Char)
  | [] => []
  | (name, value) :: rest =>
    (quote name ++ [':', ' '] ++ render level value) :: renderFields level rest

end

/-- The printed document. -/
def print (doc : Json) : String := String.ofList (render 0 doc)

end Json

end EventListing

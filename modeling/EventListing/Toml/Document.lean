-- Reading a whole document: keys, values, and the statements that make its
-- tables. A document that breaks a rule has no table.
import EventListing.Toml.Moment
import EventListing.Toml.Table

namespace EventListing.Toml

/-! ## Keys -/

/-- A key may have fewer parts, and lists and tables may lie fewer levels
deep, than this. -/
def nestingLimit : Nat := 80

def isBareKeyChar (c : Char) : Bool :=
  isDigit c || ('a' ≤ c && c ≤ 'z') || ('A' ≤ c && c ≤ 'Z') || c == '-' || c == '_'

/-- One part of a key: a text between quotes, or a bare word. -/
def simpleKey : Reader String
  | '"' :: cs => basicText ('"' :: cs)
  | '\'' :: cs => literalText ('\'' :: cs)
  | cs =>
    match cs.span isBareKeyChar with
    | ([], _) => none
    | (word, rest) => some (String.ofList word, rest)

/-- One part of a key with the blanks around it. -/
def spacedKey : Reader String := fun cs =>
  (simpleKey (skipSpaces cs)).map fun (part, rest) => (part, skipSpaces rest)

/-- A further part of a key, after a point. -/
def dottedPart : Reader String
  | '.' :: cs => spacedKey cs
  | _ => none

/-- A key: its parts with points between them. -/
def key : Reader (List String) := fun cs => do
  let (first, rest) ← spacedKey cs
  let (more, rest) := Reader.many dottedPart rest
  if more.length + 1 < nestingLimit then return (first :: more, rest) else none

/-! ## Values -/

/-- A value that holds no other values. -/
def scalar : Reader Value := fun cs =>
  match cs with
  | [] => none
  | c :: _ =>
    if c = '"' ∨ c = '\'' then (anyText cs).map fun (s, rest) => (.text s, rest)
    else if c = 't' then (Reader.exactly "true" cs).map fun (_, rest) => (.boolean true, rest)
    else if c = 'f' then (Reader.exactly "false" cs).map fun (_, rest) => (.boolean false, rest)
    else Reader.orElse moment (Reader.orElse float integer) cs

/-- An item of a list after a comma. -/
def nextItem (item : Reader Value) : Reader Value
  | ',' :: cs => (item (skipGap cs)).map fun (v, rest) => (v, skipGap rest)
  | _ => none

/-- The items of a list up to its bracket. A comma may stand after the last
one. -/
def items (item : Reader Value) : Reader Value := fun cs =>
  match skipGap cs with
  | ']' :: rest => some (.list [], rest)
  | cs => do
    let (first, rest) ← item cs
    let (more, rest) := Reader.many (nextItem item) (skipGap rest)
    match rest with
    | ']' :: rest => return (.list (first :: more), rest)
    | ',' :: rest =>
      match skipGap rest with
      | ']' :: rest => return (.list (first :: more), rest)
      | _ => none
    | _ => none

/-- A key, an equals sign and a value. -/
def pair (item : Reader Value) : Reader (List String × Value) := fun cs => do
  let (path, rest) ← key cs
  let (_, rest) ← Reader.exactly "=" rest
  let (v, rest) ← item (skipSpaces rest)
  return ((path, v), rest)

/-- A pair of a table in braces, and the blanks after it. -/
def innerPair (item : Reader Value) : Reader (List String × Value) := fun cs =>
  (pair item cs).map fun (p, rest) => (p, skipSpaces rest)

/-- A pair after a comma. -/
def nextPair (item : Reader Value) : Reader (List String × Value)
  | ',' :: cs => innerPair item cs
  | _ => none

/-- The pairs of a table in braces, up to its closing brace. They all stand
on one line, and no comma stands after the last one. -/
def innerTable (item : Reader Value) : Reader Value := fun cs =>
  match skipSpaces cs with
  | '\x7d' :: rest => some (.table [], rest)
  | cs => do
    let (first, rest) ← innerPair item cs
    let (more, rest) := Reader.many (nextPair item) rest
    let (_, rest) ← Reader.exactly "\x7d" rest
    return (← tableOfPairs (first :: more), rest)

/-- A value that holds others at most `depth` levels deep. -/
def valueUpTo : Nat → Reader Value
  | 0 => fun cs => scalar cs
  | depth + 1 => fun cs =>
    match cs with
    | '[' :: rest => items (valueUpTo depth) rest
    | '\x7b' :: rest => innerTable (valueUpTo depth) rest
    | cs => scalar cs

def value : Reader Value := valueUpTo (nestingLimit - 1)

/-! ## Statements -/

inductive Statement where
  | pair (path : List String) (v : Value)
  /-- The header of a table. -/
  | header (path : List String)
  /-- The header of one more table of a list. -/
  | listHeader (path : List String)

/-- A statement up to the end of its line. -/
def statement : Reader Statement := fun cs =>
  match cs with
  | '[' :: '[' :: rest => do
    let (path, rest) ← key rest
    let (_, rest) ← Reader.exactly "]]" rest
    return (.listHeader path, ← endOfLine? rest)
  | '[' :: rest => do
    let (path, rest) ← key rest
    let (_, rest) ← Reader.exactly "]" rest
    return (.header path, ← endOfLine? rest)
  | cs => do
    let ((path, v), rest) ← pair value cs
    return (.pair path v, ← endOfLine? rest)

/-- A statement with the blank lines after it. -/
def statementAndGap : Reader Statement := fun cs =>
  (statement cs).map fun (s, rest) => (s, skipGap rest)

/-- The statements of a document. A byte order mark may stand in front of
them, and a comment without a new line after them. -/
def statements (cs : List Char) : Option (List Statement) :=
  let start := match cs with
    | '\ufeff' :: rest => rest
    | cs => cs
  match Reader.many statementAndGap (skipGap start) with
  | (found, rest) => if (skipComment rest).isEmpty then some found else none

/-! ## The document -/

/-- The tables so far, and the path of the table that pairs go to. -/
structure Progress where
  root : Entries
  path : List String

def Progress.add (p : Progress) : Statement → Option Progress
  | .pair path v => do
    return { p with root := ← atPath p.path (putPair true path v) p.root }
  | .header path => do
    return ⟨← atPath path.dropLast (nameTable (path.getLast?.getD "")) p.root, path⟩
  | .listHeader path => do
    return ⟨← atPath path.dropLast (addTable (path.getLast?.getD "")) p.root, path⟩

/-- The table of a document, or `none` when the text is no document. -/
def document? (text : String) : Option Value := do
  let found ← statements text.toList
  let done ← found.foldlM Progress.add ⟨[], []⟩
  return .table (entriesToValues done.root)

end EventListing.Toml

-- Texts between quotes. Double quotes allow escapes, single quotes take
-- every character as it is, and three quotes let the text run over lines.
import EventListing.Toml.Reader

namespace EventListing.Toml

/-! ## Escapes -/

/-- The value of a hexadecimal digit. -/
def hexValue (c : Char) : Nat :=
  if isDigit c then c.toNat - '0'.toNat else 10 + (c.toLower.toNat - 'a'.toNat)

/-- The character whose number has exactly `count` hexadecimal digits. -/
def codePoint (count : Nat) : Reader Char := fun cs =>
  let digits := cs.take count
  let n := digits.foldl (fun n c => 16 * n + hexValue c) 0
  if digits.length = count ∧ digits.all isHexDigit ∧ n.isValidChar then
    some (Char.ofNat n, cs.drop count)
  else none

/-- The character for what stands after a backslash. -/
def escaped : Reader Char
  | 'b' :: rest => some ('\x08', rest)
  | 't' :: rest => some ('\t', rest)
  | 'n' :: rest => some ('\n', rest)
  | 'f' :: rest => some ('\x0c', rest)
  | 'r' :: rest => some ('\r', rest)
  | '"' :: rest => some ('"', rest)
  | '\\' :: rest => some ('\\', rest)
  | 'u' :: rest => codePoint 4 rest
  | 'U' :: rest => codePoint 8 rest
  | _ => none

/-! ## Texts on one line -/

/-- A character between double quotes. -/
def basicChar : Reader Char
  | '\\' :: rest => escaped rest
  | cs => Reader.one (fun c => isTextChar c && c ≠ '"') cs

/-- A text between double quotes. -/
def basicText : Reader String
  | '"' :: cs =>
    match Reader.many basicChar cs with
    | (text, '"' :: rest) => some (String.ofList text, rest)
    | _ => none
  | _ => none

/-- A character between single quotes. -/
def isLiteralChar (c : Char) : Bool := isTextChar c && c ≠ '\''

/-- A text between single quotes. -/
def literalText : Reader String
  | '\'' :: cs =>
    match cs.span isLiteralChar with
    | (text, '\'' :: rest) => some (String.ofList text, rest)
    | _ => none
  | _ => none

/-! ## Texts over lines -/

/-- A new line, which always counts as a line feed. -/
def lineFeed : Reader (List Char) := fun cs => (newLine? cs).map fun rest => (['\n'], rest)

/-- A backslash at the end of a line. The blanks and new lines after it do
not belong to the text. -/
def continuedLine : Reader (List Char)
  | '\\' :: rest => do
    let rest ← newLine? (skipSpaces rest)
    let space : Reader Unit := fun cs =>
      ((newLine? cs).map ((), ·)).or ((Reader.one isSpace cs).map fun (_, cs) => ((), cs))
    return ([], (Reader.many space rest).2)
  | _ => none

/-- One or two quotes that do not end the text. -/
def innerQuotes (quote : Char) : Reader (List Char) := fun cs =>
  let quotes := cs.takeWhile (· == quote)
  if quotes.length = 1 ∨ quotes.length = 2 then some (quotes, cs.drop quotes.length) else none

/-- The three quotes that end the text. Up to two quotes before them still
belong to it. -/
def closingQuotes (quote : Char) : Reader (List Char) := fun cs =>
  let count := (cs.takeWhile (· == quote)).length
  if count < 3 then none
  else
    let inner := min (count - 3) 2
    some (List.replicate inner quote, cs.drop (inner + 3))

/-- A text over lines, after its three opening quotes. A new line right
after them does not belong to the text. -/
def textOverLines (quote : Char) (piece : Reader (List Char)) : Reader String := fun cs => do
  let (pieces, rest) := Reader.many piece ((newLine? cs).getD cs)
  let (last, rest) ← closingQuotes quote rest
  return (String.ofList (pieces.flatten ++ last), rest)

/-- A part of a text between three double quotes. -/
def basicPiece : Reader (List Char) :=
  Reader.orElse continuedLine <| Reader.orElse lineFeed <| Reader.orElse (innerQuotes '"')
    fun cs => (basicChar cs).map fun (c, rest) => ([c], rest)

/-- A part of a text between three single quotes. -/
def literalPiece : Reader (List Char) :=
  Reader.orElse lineFeed <| Reader.orElse (innerQuotes '\'')
    fun cs => (Reader.one isLiteralChar cs).map fun (c, rest) => ([c], rest)

/-! ## Any text -/

def anyText : Reader String
  | '"' :: '"' :: '"' :: cs => textOverLines '"' basicPiece cs
  | '\'' :: '\'' :: '\'' :: cs => textOverLines '\'' literalPiece cs
  | '"' :: cs => basicText ('"' :: cs)
  | cs => literalText cs

end EventListing.Toml

-- Text between quotes, as the messages show a value: the quote and the
-- backslash are escaped, a few controls have a letter of their own, and
-- every other unprintable character is shown by its number.
import EventListing.Text.Unprintable

namespace EventListing.Text

/-- The number of a code point in hexadecimal, between braces. -/
def codePointEscape (c : Char) : List Char :=
  "\\u\x7b".toList ++ Nat.toDigits 16 c.toNat ++ "\x7d".toList

/-- One character as it stands between the quotes. -/
def quoteChar (c : Char) : List Char :=
  match c with
  | '\x00' => ['\\', '0']
  | '\t' => ['\\', 't']
  | '\n' => ['\\', 'n']
  | '\r' => ['\\', 'r']
  | '"' => ['\\', '"']
  | '\\' => ['\\', '\\']
  | c => if isUnprintable c then codePointEscape c else [c]

/-- The text between quotes. -/
def quoted (s : String) : String :=
  String.ofList ('"' :: s.toList.flatMap quoteChar ++ ['"'])

end EventListing.Text

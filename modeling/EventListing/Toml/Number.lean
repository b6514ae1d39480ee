-- Whole and floating point numbers. Digits may be grouped with underscores,
-- each of which stands between two digits.
import EventListing.Number.Saturating
import EventListing.Toml.Quote
import EventListing.Toml.Value

namespace EventListing.Toml

/-! ## Digits -/

/-- The digits of a class after the first one, without the underscores. -/
def moreDigits (p : Char → Bool) : List Char → List Char × List Char
  | [] => ([], [])
  | '_' :: c :: rest =>
    if p c then
      let (digits, rest) := moreDigits p rest
      (c :: digits, rest)
    else ([], '_' :: c :: rest)
  | c :: rest =>
    if p c then
      let (digits, rest) := moreDigits p rest
      (c :: digits, rest)
    else ([], c :: rest)

/-- One or more digits of a class. -/
def digits (p : Char → Bool) : Reader (List Char)
  | [] => none
  | c :: rest =>
    if p c then
      let (more, rest) := moreDigits p rest
      some (c :: more, rest)
    else none

/-- The value of digits in a base. -/
def valueOf (base : Nat) (ds : List Char) : Nat :=
  ds.foldl (fun n c => base * n + hexValue c) 0

/-- A sign, if there is one: it is true for a minus. -/
def sign : List Char → Bool × List Char
  | '-' :: rest => (true, rest)
  | '+' :: rest => (false, rest)
  | cs => (false, cs)

/-- The decimal digits of a whole number. A zero stands alone. -/
def wholeDigits : Reader (List Char)
  | '0' :: rest => some (['0'], rest)
  | cs => digits isDigit cs

/-! ## Whole numbers -/

/-- A value of 64 bits. -/
def inRange (n : Int) : Option Int := if Saturating.InRange n then some n else none

/-- A number without a sign in another base than ten. -/
def based (base : Nat) (p : Char → Bool) : Reader Value := fun cs => do
  let (ds, rest) ← digits p cs
  return (.integer (← inRange (valueOf base ds)), rest)

/-- A whole number. -/
def integer : Reader Value
  | '0' :: 'x' :: rest => based 16 isHexDigit rest
  | '0' :: 'o' :: rest => based 8 (fun c => '0' ≤ c && c ≤ '7') rest
  | '0' :: 'b' :: rest => based 2 (fun c => c == '0' || c == '1') rest
  | cs => do
    let (negative, rest) := sign cs
    let (ds, rest) ← wholeDigits rest
    let n : Int := valueOf 10 ds
    return (.integer (← inRange (if negative then -n else n)), rest)

/-! ## Floating point numbers -/

/-- The least value that rounds to infinity: half a unit above the greatest
number of double precision. -/
def infinityBound : Nat := Nat.pow 2 1024 - Nat.pow 2 970

/-- The value `mantissa * 10 ^ exponent` rounds to infinity. The number of
digits settles all but the values near the bound. -/
def roundsToInfinity (mantissa : Nat) (exponent : Int) : Bool :=
  let size := (Nat.toDigits 10 mantissa).length + exponent
  if mantissa = 0 ∨ size < 300 then false
  else if 400 < size then true
  else infinityBound * Nat.pow 10 (-exponent).toNat ≤ mantissa * Nat.pow 10 exponent.toNat

/-- The digits after the point. -/
def fraction : Reader (List Char)
  | '.' :: rest => digits isDigit rest
  | _ => none

def exponent : Reader Int
  | c :: rest =>
    if c = 'e' ∨ c = 'E' then do
      let (negative, rest) := sign rest
      let (ds, rest) ← digits isDigit rest
      let n : Int := valueOf 10 ds
      return (if negative then -n else n, rest)
    else none
  | [] => none

/-- The part of the text that a reader took. -/
def spelling (cs rest : List Char) : String := String.ofList (cs.take (cs.length - rest.length))

/-- A number with a fraction, an exponent or both. A positive one that
rounds to infinity is refused. -/
def decimalFloat : Reader Value := fun cs => do
  let (negative, afterSign) := sign cs
  let (whole, afterWhole) ← wholeDigits afterSign
  let (decimals, afterDecimals) := (fraction afterWhole).getD ([], afterWhole)
  let (power, rest) := (exponent afterDecimals).getD (0, afterDecimals)
  if rest.length = afterWhole.length then none
  else if !negative && roundsToInfinity (valueOf 10 (whole ++ decimals)) (power - decimals.length)
  then none
  else return (.float (spelling cs rest), rest)

/-- The words for infinity and for no number. -/
def namedFloat : Reader Value := fun cs => do
  let (_, afterSign) := sign cs
  let (_, rest) ← Reader.orElse (Reader.exactly "inf") (Reader.exactly "nan") afterSign
  return (.float (spelling cs rest), rest)

def float : Reader Value := Reader.orElse decimalFloat namedFloat

end EventListing.Toml

-- Dates and times. A date may have a time after it, and that time an offset
-- from universal time.
import EventListing.Toml.Number

namespace EventListing.Toml

/-- A number of exactly `count` digits, at least `low` and at most `high`. -/
def fixedNumber (count low high : Nat) : Reader Nat := fun cs =>
  let ds := cs.take count
  let n := valueOf 10 ds
  if ds.length = count ∧ ds.all isDigit ∧ low ≤ n ∧ n ≤ high then some (n, cs.drop count)
  else none

/-! ## Dates -/

def isLeapYear (year : Nat) : Bool := year % 4 == 0 && (year % 100 != 0 || year % 400 == 0)

def daysInMonth (year month : Nat) : Nat :=
  if month = 2 then if isLeapYear year then 29 else 28
  else if month ∈ [4, 6, 9, 11] then 30
  else 31

/-- A date `YYYY-MM-DD` that is in the calendar. -/
def date : Reader Unit := fun cs => do
  let (year, rest) ← fixedNumber 4 0 9999 cs
  let (_, rest) ← Reader.exactly "-" rest
  let (month, rest) ← fixedNumber 2 1 12 rest
  let (_, rest) ← Reader.exactly "-" rest
  let (_, rest) ← fixedNumber 2 1 (daysInMonth year month) rest
  return ((), rest)

/-! ## Times -/

/-- An hour and a minute `HH:MM`. -/
def hourMinute : Reader Unit := fun cs => do
  let (_, rest) ← fixedNumber 2 0 23 cs
  let (_, rest) ← Reader.exactly ":" rest
  let (_, rest) ← fixedNumber 2 0 59 rest
  return ((), rest)

/-- A decimal part of a second, of any length. -/
def secondFraction : Reader Unit := fun cs => do
  let (_, rest) ← Reader.exactly "." cs
  let (_, rest) ← Reader.one isDigit rest
  return ((), rest.dropWhile isDigit)

/-- A time `HH:MM:SS`. Leap seconds are allowed. -/
def time : Reader Unit := fun cs => do
  let (_, rest) ← hourMinute cs
  let (_, rest) ← Reader.exactly ":" rest
  let (_, rest) ← fixedNumber 2 0 60 rest
  return ((secondFraction rest).getD ((), rest))

/-- A `Z`, or a sign with hours and minutes. -/
def offset : Reader Unit
  | c :: rest =>
    if c = 'Z' ∨ c = 'z' then some ((), rest)
    else if c = '+' ∨ c = '-' then hourMinute rest
    else none
  | [] => none

/-- The time after a date, and its offset. -/
def timeOfDay : Reader Unit := fun cs => do
  let (_, rest) ← Reader.one (fun c => c == 'T' || c == 't' || c == ' ') cs
  let (_, rest) ← time rest
  return ((offset rest).getD ((), rest))

/-- A date with or without a time. -/
def dateTime : Reader Unit := fun cs => do
  let (_, rest) ← date cs
  return ((timeOfDay rest).getD ((), rest))

/-- A date, a time, or both. -/
def moment : Reader Value := fun cs => do
  let (_, rest) ← Reader.orElse dateTime time cs
  return (.moment (spelling cs rest), rest)

end EventListing.Toml

-- Reading decimal numerals. A numeral is one or more ASCII digits with an
-- optional sign before them, and nothing else.
import EventListing.Number.Saturating

namespace EventListing.Decimal

/-- The value of an ASCII digit. -/
def digit? (c : Char) : Option Nat :=
  if '0' ≤ c ∧ c ≤ '9' then some (c.toNat - '0'.toNat) else none

/-- The value of one or more digits. -/
def digits? : List Char → Option Nat
  | [] => none
  | cs => cs.foldlM (fun n c => (digit? c).map (10 * n + ·)) 0

/-- The value of digits that may have a plus sign. -/
def natural? : List Char → Option Nat
  | '+' :: cs => digits? cs
  | cs => digits? cs

/-- The value of digits that may have either sign. -/
def integer? : List Char → Option Int
  | '-' :: cs => (digits? cs).map fun n => -Int.ofNat n
  | cs => (natural? cs).map Int.ofNat

/-- A numeral without a minus sign whose value fits in 32 bits. -/
def word32? (cs : List Char) : Option Nat :=
  (natural? cs).filter (· < 4294967296)

/-- A numeral whose value is a number of 64 bits. -/
def word64? (cs : List Char) : Option Int :=
  (integer? cs).filter (Saturating.InRange ·)

theorem word64?_inRange {cs : List Char} {n : Int} (h : word64? cs = some n) :
    Saturating.InRange n := by
  simpa using (Option.filter_eq_some_iff.mp h).2

end EventListing.Decimal

-- The unit that the compiler saw, line by line. The entry at each index says
-- from which line of which file that line came, or that the SQL precompiler
-- made it. Positions follow the rules of a splice: one past the end counts as
-- the end, and a negative one counts back from the end, down to the front.
-- A map may have any number of lines here. The capacity of an array is left out:
-- a program that keeps its lines in one stops when a file end gives a length for
-- which there is no memory.
namespace EventListing

/-- Where one line of the unit came from. -/
structure Origin where
  path : String
  /-- The line within the file, from one. -/
  line : Nat
  /-- The SQL precompiler made the line. It stands for no line of the file. -/
  isSql : Bool
deriving DecidableEq, Repr

structure LineMap where
  lines : List Origin
deriving DecidableEq, Repr, Inhabited

namespace LineMap

/-- The map of a unit without lines. -/
def empty : LineMap := ⟨[]⟩

def len (m : LineMap) : Nat := m.lines.length

/-! ## Looking up -/

/-- The entry of the line with this index, from zero. -/
def get? (m : LineMap) (index : Int) : Option Origin :=
  if 0 ≤ index then m.lines[index.toNat]? else none

/-- The origin of the line with this index, unless the precompiler made it. -/
def resolve? (m : LineMap) (index : Int) : Option Origin :=
  (m.get? index).filter (!·.isSql)

/-! ## Splicing -/

/-- The index that a position stands for in a list of `len` entries. -/
def spliceIndex (len : Nat) (position : Int) : Nat :=
  if 0 ≤ position then min position.toNat len else len - position.natAbs

/-- The entries for `count` lines of a file, numbered from one. -/
def numbered (path : String) (count : Nat) (isSql : Bool) : List Origin :=
  (List.range' 1 count).map fun line => ⟨path, line, isSql⟩

/-- The map with the entries put in at a position. -/
def insert (m : LineMap) (position : Int) (entries : List Origin) : LineMap :=
  let start := spliceIndex m.len position
  ⟨m.lines.take start ++ entries ++ m.lines.drop start⟩

/-- The map with the first `count` lines of a file put in at a position. -/
def insertFile (m : LineMap) (position : Int) (path : String) (count : Nat) : LineMap :=
  m.insert position (numbered path count false)

/-- The map with `count` lines of the precompiler put in at a position. -/
def insertSql (m : LineMap) (position : Int) (path : String) (count : Nat) : LineMap :=
  m.insert position (numbered path count true)

/-- The map with up to `count` entries taken out from a position on. -/
def remove (m : LineMap) (position : Int) (count : Nat) : LineMap :=
  let start := spliceIndex m.len position
  ⟨m.lines.take start ++ m.lines.drop (start + count)⟩

end LineMap

end EventListing

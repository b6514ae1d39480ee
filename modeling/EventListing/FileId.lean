-- The numbers by which a listing names its files.
namespace EventListing

/-- The number of a source file, unique within one compile step. -/
structure FileId where
  number : Nat
deriving DecidableEq, Repr, Inhabited

namespace FileId

/-- By convention, the root member of a compile. -/
def root : FileId := ⟨1⟩

/-- The unit that an SQL precompiler makes and hands to the compiler. -/
def baseUnit : FileId := ⟨999⟩

/-- The number with at least three digits. -/
def text (id : FileId) : String :=
  let digits := Nat.toDigits 10 id.number
  String.ofList (List.replicate (3 - digits.length) '0' ++ digits)

end FileId

end EventListing

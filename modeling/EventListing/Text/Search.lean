-- Looking for one text inside another.
namespace EventListing.Text

/-- The needle occurs somewhere in the text. The empty needle always does. -/
def occursIn (needle : List Char) : List Char → Bool
  | [] => needle.isEmpty
  | c :: cs => needle.isPrefixOf (c :: cs) || occursIn needle cs

theorem occursIn_iff {needle text : List Char} : occursIn needle text ↔ needle <:+: text := by
  induction text with
  | nil => simp [occursIn]
  | cons c cs ih => simp [occursIn, List.infix_cons_iff, ih]

/-- The text without the first occurrence of the needle. -/
def removeFirst (needle : List Char) : List Char → List Char
  | [] => []
  | c :: cs =>
    if needle.isPrefixOf (c :: cs) then (c :: cs).drop needle.length
    else c :: removeFirst needle cs

end EventListing.Text

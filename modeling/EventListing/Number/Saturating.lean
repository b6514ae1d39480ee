-- Whole numbers of 64 bits. A sum or a difference that leaves the range
-- stops at the nearer end. The numbers themselves are integers, so that the
-- laws of integers hold for them as they are.
namespace EventListing.Saturating

/-- The least number of 64 bits. -/
def least : Int := -9223372036854775808

/-- The greatest number of 64 bits. -/
def greatest : Int := 9223372036854775807

/-- The number is one of 64 bits. -/
def InRange (n : Int) : Prop := least ≤ n ∧ n ≤ greatest

instance (n : Int) : Decidable (InRange n) := inferInstanceAs (Decidable (_ ∧ _))

/-- The number of 64 bits nearest to `n`. -/
def clamp (n : Int) : Int := max least (min greatest n)

def add (a b : Int) : Int := clamp (a + b)

def sub (a b : Int) : Int := clamp (a - b)

theorem clamp_inRange (n : Int) : InRange (clamp n) := by
  simp only [InRange, clamp, least, greatest]
  omega

theorem clamp_of_inRange {n : Int} (h : InRange n) : clamp n = n := by
  simp only [InRange, clamp, least, greatest] at *
  omega

theorem add_of_inRange {a b : Int} (h : InRange (a + b)) : add a b = a + b := clamp_of_inRange h

theorem sub_of_inRange {a b : Int} (h : InRange (a - b)) : sub a b = a - b := clamp_of_inRange h

theorem add_inRange (a b : Int) : InRange (add a b) := clamp_inRange _

theorem sub_inRange (a b : Int) : InRange (sub a b) := clamp_inRange _

end EventListing.Saturating

/-! Sets of characters given by the points where they begin and end. -/
namespace Planner.Text

/-- Whether `c` lies in one of the ranges, each written as its first member and the first number
after it, in ascending order. -/
def inRanges : List Nat → Nat → Bool
  | first :: stop :: rest, c => if c < first then false else c < stop || inRanges rest c
  | _, _ => false

end Planner.Text

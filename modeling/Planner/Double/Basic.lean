/-! Finite binary floating-point numbers of 64 bits, with exact integer arithmetic behind them. -/
namespace Planner

/-- A finite double: its sign, and the 63 bits below the sign read as a number. -/
structure Double where
  negative : Bool
  bits : Nat
  finite : bits < 0x7FF0000000000000
deriving DecidableEq

namespace Double

/-- Zero of the given sign. -/
def zero (negative : Bool) : Double := ⟨negative, 0, by decide⟩

instance : Inhabited Double := ⟨zero false⟩

/-- How many halvings of the unit `2 ^ -1074` are left out: the weight of the last bit is
`2 ^ scale` units. -/
def scale (x : Double) : Nat := x.bits / Nat.pow 2 52 - 1

/-- The significand, a whole number of `2 ^ scale` units. -/
def significand (x : Double) : Nat :=
  if x.bits < Nat.pow 2 52 then x.bits else x.bits % Nat.pow 2 52 + Nat.pow 2 52

/-- The magnitude as a multiple of `2 ^ -1074`. -/
def units (x : Double) : Nat := x.significand * Nat.pow 2 x.scale

/-- The number's place on the line: equal for the two zeros. -/
def place (x : Double) : Int := if x.negative then -(x.bits : Int) else x.bits

/-- The number's place in the order that puts `-0.0` just before `0.0`. -/
def strictPlace (x : Double) : Int := if x.negative then -(x.bits : Int) - 1 else x.bits

def isZero (x : Double) : Bool := x.bits == 0

/-- The numeric order, in which the two zeros are equal. -/
def compare (x y : Double) : Ordering := Ord.compare x.place y.place

/-- The total order of the bit patterns, in which `-0.0` comes before `0.0`. -/
def totalCompare (x y : Double) : Ordering := Ord.compare x.strictPlace y.strictPlace

/-- The same number without the sign of a zero. -/
def unsignedZero (x : Double) : Double := if x.isZero then zero false else x

end Double
end Planner

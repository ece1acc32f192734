import Planner.Double.Basic

/-! Rounding a quotient to the nearest double, a half to the even neighbour. -/
namespace Planner

/-- The quotient rounded to the nearest whole number, a half to the even one. -/
def roundHalfEven (num den : Nat) : Nat :=
  let quotient := num / den
  let twice := 2 * (num % den)
  if twice < den then quotient
  else if den < twice then quotient + 1
  else quotient + quotient % 2

namespace Double

/-- The bits of the double nearest to `num / den` units of `2 ^ -1074`. Rounding up past the
last significand carries into the exponent, which is the next double. -/
def nearestBits (num den : Nat) : Nat :=
  let scale := (num / den).log2 - 52
  scale * Nat.pow 2 52 + roundHalfEven num (den * Nat.pow 2 scale)

/-- The double nearest to `num / den` units of `2 ^ -1074`, unless it is too large. -/
def ofUnits? (negative : Bool) (num den : Nat) : Option Double :=
  if h : nearestBits num den < 0x7FF0000000000000 then some ⟨negative, nearestBits num den, h⟩
  else none

/-- The double nearest to `num / den`, unless it is too large. -/
def ofQuotient? (negative : Bool) (num den : Nat) : Option Double :=
  ofUnits? negative (num * Nat.pow 2 1074) den

/-- The double nearest to a whole number below `2 ^ 1023`. -/
def ofInt (n : Int) : Double := (ofQuotient? (n < 0) n.natAbs 1).getD (zero false)

def mul? (x y : Double) : Option Double :=
  ofUnits? (x.negative != y.negative) (x.units * y.units) (Nat.pow 2 1074)

/-- The quotient by a number other than zero. -/
def div? (x y : Double) : Option Double :=
  ofUnits? (x.negative != y.negative) (x.units * Nat.pow 2 1074) y.units

/-- The magnitude rounded to a whole number, a half upwards. -/
def roundToNat (x : Double) : Nat := (2 * x.units + Nat.pow 2 1074) / Nat.pow 2 1075

def negate (x : Double) : Double := { x with negative := !x.negative }

end Double
end Planner

import Planner.Double.Rounding
import Planner.Double.Shortest

/-! The numbers of JSON: 64-bit integers, unsigned or negative, and finite doubles. -/
namespace Planner

/-- A whole number that fits 64 bits, without a sign or with one. -/
structure Integer where
  value : Int
  inRange : -0x8000000000000000 ≤ value ∧ value < 0x10000000000000000
deriving DecidableEq

namespace Integer

def ofInt? (n : Int) : Option Integer :=
  if h : -0x8000000000000000 ≤ n ∧ n < 0x10000000000000000 then some ⟨n, h⟩ else none

def ofBool (b : Bool) : Integer := if b then ⟨1, by decide⟩ else ⟨0, by decide⟩

def toText (n : Integer) : List Char :=
  if n.value < 0 then '-' :: Nat.toDigits 10 n.value.natAbs else Nat.toDigits 10 n.value.natAbs

end Integer

/-- An integer is never the same number as a double. -/
inductive Number
  | integer (n : Integer)
  | double (x : Double)
deriving DecidableEq

namespace Number

/-- The nearest double, by which numbers are compared. -/
def toDouble : Number → Double
  | .integer n => .ofInt n.value
  | .double x => x

def toText : Number → List Char
  | .integer n => n.toText
  | .double x => x.toText

/-- The same number without the sign of a zero. -/
def unsignedZero : Number → Number
  | .integer n => .integer n
  | .double x => .double x.unsignedZero

end Number
end Planner

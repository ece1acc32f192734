import Planner.Double.Basic

/-!
The decimal text of a double: the fewest digits that read back as the same number, and of those
the nearest.
-/
namespace Planner.Double

/-- The digits of a decimal number and the power of ten that its last digit counts. -/
structure Decimal where
  digits : Nat
  exponent : Int

/-- The reals that round to one double, in quarters of the unit `2 ^ -1074`; the ends belong to
them when `closed`. -/
structure Interval where
  low : Nat
  middle : Nat
  high : Nat
  closed : Bool

def interval (x : Double) : Interval :=
  let ulp := Nat.pow 2 x.scale
  let below := if x.significand = Nat.pow 2 52 ∧ x.scale ≠ 0 then ulp else 2 * ulp
  ⟨4 * x.units - below, 4 * x.units, 4 * x.units + 2 * ulp, x.significand % 2 == 0⟩

def Interval.holds (i : Interval) (num den : Nat) : Bool :=
  if i.closed then i.low * den ≤ num && num ≤ i.high * den
  else i.low * den < num && num < i.high * den

/-- The power of ten of the first digit. -/
def leadingExponent (x : Double) : Int :=
  ((Nat.toDigits 10 (x.units * Nat.pow 10 400 / Nat.pow 2 1074)).length : Int) - 401

/-- The multiple of `10 ^ exponent` that lies nearest among the two neighbours of `x` and still
rounds to it; of two equally near ones the even one. -/
def onGrid (x : Double) (exponent : Int) : Option Decimal :=
  let i := x.interval
  -- a digit count `d` stands for `d * step / den` quarter units
  let step := 4 * Nat.pow 2 1074 * Nat.pow 10 exponent.toNat
  let den := Nat.pow 10 (-exponent).toNat
  let below := i.middle * den / step
  let above := below + 1
  let holds (d : Nat) : Bool := i.holds (d * step) den
  let belowGap := i.middle * den - below * step
  let aboveGap := above * step - i.middle * den
  let nearer :=
    if belowGap < aboveGap then below
    else if aboveGap < belowGap then above
    else if below % 2 = 0 then below else above
  if holds below && holds above then some ⟨nearer, exponent⟩
  else if holds below then some ⟨below, exponent⟩
  else if holds above then some ⟨above, exponent⟩
  else none

/-- Trailing zeros moved into the exponent. -/
def Decimal.trimmed (fuel : Nat) (d : Decimal) : Decimal :=
  match fuel with
  | 0 => d
  | fuel + 1 =>
    if d.digits ≠ 0 ∧ d.digits % 10 = 0 then trimmed fuel ⟨d.digits / 10, d.exponent + 1⟩ else d

/-- The shortest decimal that rounds to `x`; seventeen digits always do. -/
def shortest (x : Double) : Decimal :=
  let first := x.leadingExponent
  match (List.range 17).findSome? fun count => x.onGrid (first - (count : Nat)) with
  | some d => d.trimmed 17
  | none => ⟨0, 0⟩

/-- Which decimals are written without an exponent: the point may stand at most this many places
to the right of the first digit, or this many zeros may follow it in front of that digit. -/
structure Layout where
  wholeDigits : Nat
  leadingZeros : Nat

/-- Positional from `1e-5` to below `1e16`. -/
def plainLayout : Layout := ⟨16, 4⟩

def zeros (n : Nat) : List Char := List.replicate n '0'

def Decimal.toText (layout : Layout) (d : Decimal) : List Char :=
  let digits := Nat.toDigits 10 d.digits
  let point : Int := digits.length + d.exponent
  if 0 ≤ d.exponent ∧ point ≤ layout.wholeDigits then
    digits ++ zeros d.exponent.toNat ++ ['.', '0']
  else if 0 < point ∧ point ≤ layout.wholeDigits then
    digits.take point.toNat ++ '.' :: digits.drop point.toNat
  else if point ≤ 0 ∧ -(layout.leadingZeros : Int) ≤ point then
    '0' :: '.' :: zeros (-point).toNat ++ digits
  else
    let fraction := digits.drop 1
    let power := point - 1
    digits.take 1 ++ (if fraction.isEmpty then [] else '.' :: fraction)
      ++ 'e' :: (if power < 0 then '-' else '+') :: Nat.toDigits 10 power.natAbs

/-- The text of a double, with a decimal point or an exponent always. -/
def toText (x : Double) : List Char :=
  let magnitude := if x.isZero then ['0', '.', '0'] else x.shortest.toText plainLayout
  if x.negative then '-' :: magnitude else magnitude

end Planner.Double

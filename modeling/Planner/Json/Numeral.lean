import Planner.Json.Fault

/-!
The numbers of a JSON text. The digits are taken as they come: what no longer fits 64 bits only
counts towards the power of ten, and the product with that power is rounded once more.
-/
namespace Planner.Json

/-- Reads something from the front of a text and returns what is left. -/
abbrev Reader (α : Type) := List Char → Except Fault (α × List Char)

/-- A number as it is spelled. -/
structure Numeral where
  negative : Bool
  whole : List Char
  fraction : Option (List Char)
  /-- Whether the exponent is negative, and its digits. -/
  exponent : Option (Bool × List Char)

namespace Numeral

/-- One digit or more. -/
def readDigits : Reader (List Char) := fun s =>
  match s.takeWhile Char.isDigit with
  | [] => .error (if s.isEmpty then .endInValue else .invalidNumber)
  | digits => .ok (digits, s.dropWhile Char.isDigit)

/-- Digits without a needless zero in front. -/
def readWhole : Reader (List Char) := fun s => do
  let (digits, rest) ← readDigits s
  match digits with
  | '0' :: _ :: _ => .error .invalidNumber
  | _ => return (digits, rest)

def readFraction : Reader (Option (List Char))
  | '.' :: s => do
    let (digits, rest) ← readDigits s
    return (some digits, rest)
  | s => .ok (none, s)

def readSign : List Char → Bool × List Char
  | '-' :: s => (true, s)
  | '+' :: s => (false, s)
  | s => (false, s)

def readPower (s : List Char) : Except Fault (Option (Bool × List Char) × List Char) := do
  let (negative, s) := readSign s
  let (digits, rest) ← readDigits s
  return (some (negative, digits), rest)

def readExponent : Reader (Option (Bool × List Char))
  | 'e' :: s => readPower s
  | 'E' :: s => readPower s
  | s => .ok (none, s)

def readUnsigned (negative : Bool) : Reader Numeral := fun s => do
  let (whole, s) ← readWhole s
  let (fraction, s) ← readFraction s
  let (exponent, s) ← readExponent s
  return (⟨negative, whole, fraction, exponent⟩, s)

def read : Reader Numeral
  | '-' :: s => readUnsigned true s
  | s => readUnsigned false s

/-- The digits that fit 64 bits, and the power of ten that they are to be multiplied with. -/
structure Significand where
  digits : Nat
  exponent : Int
  full : Bool

def Significand.addWhole (x : Significand) (c : Char) : Significand :=
  let digits := x.digits * 10 + (c.toNat - '0'.toNat)
  if x.full || 0x10000000000000000 ≤ digits then { x with exponent := x.exponent + 1, full := true }
  else { x with digits }

def Significand.addFraction (x : Significand) (c : Char) : Significand :=
  let digits := x.digits * 10 + (c.toNat - '0'.toNat)
  if x.full || 0x10000000000000000 ≤ digits then { x with full := true }
  else { x with digits, exponent := x.exponent - 1 }

def significand (n : Numeral) : Significand :=
  let whole := n.whole.foldl Significand.addWhole ⟨0, 0, false⟩
  (n.fraction.getD []).foldl Significand.addFraction { whole with full := false }

def powerOfTen (exponent : Nat) : Double :=
  (Double.ofQuotient? false (Nat.pow 10 exponent) 1).getD default

/-- `x` times a power of ten. Powers below `1e-308` are taken off in steps of that size, of which
two leave zero of any 64-bit number. -/
def scaleByTen (steps : Nat) (x : Double) (exponent : Int) : Except Fault Double :=
  if exponent.natAbs ≤ 308 then
    let scaled := if 0 ≤ exponent then x.mul? (powerOfTen exponent.natAbs)
      else x.div? (powerOfTen exponent.natAbs)
    match scaled with
    | some y => .ok y
    | none => .error .numberOutOfRange
  else if x.isZero then .ok x
  else if 0 ≤ exponent then .error .numberOutOfRange
  else match steps with
    | 0 => .ok (Double.zero false)
    | steps + 1 => scaleByTen steps ((x.div? (powerOfTen 308)).getD default) (exponent + 308)

/-- The largest exponent that is read digit by digit. -/
def exponentLimit : Nat := 0x7FFFFFFF

def magnitude (n : Numeral) : Except Fault Double :=
  let x := n.significand
  let start := Double.ofInt x.digits
  match n.exponent with
  | none => scaleByTen 3 start x.exponent
  | some (negative, digits) =>
    let power := Nat.ofDigitChars 10 digits 0
    if exponentLimit < power then
      if x.digits ≠ 0 ∧ !negative then .error .numberOutOfRange else .ok (Double.zero false)
    else scaleByTen 3 start (if negative then x.exponent - power else x.exponent + power)

def toDouble (n : Numeral) : Except Fault Double := do
  let x ← n.magnitude
  return if n.negative then x.negate else x

/-- Digits alone are an integer where 64 bits hold it, but a negative zero is a double. -/
def toInteger? (n : Numeral) : Option Integer :=
  match n.fraction, n.exponent with
  | none, none =>
    let whole := Nat.ofDigitChars 10 n.whole 0
    if n.negative then
      if whole = 0 then none else Integer.ofInt? (-(whole : Int))
    else Integer.ofInt? whole
  | _, _ => none

def toNumber (n : Numeral) : Except Fault Number :=
  match n.toInteger? with
  | some i => .ok (.integer i)
  | none => do return .double (← n.toDouble)

end Numeral

def readNumber : Reader Number := fun s => do
  let (numeral, rest) ← Numeral.read s
  return (← numeral.toNumber, rest)

end Planner.Json

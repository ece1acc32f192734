import Planner.Date
import Planner.Text.Blank

/-! Dates as text: year, month and day with dashes between them. -/
namespace Planner.Date

inductive TextError
  | tooShort
  | invalid
  | outOfRange
  | tooLong
deriving DecidableEq

def TextError.message : TextError → String
  | .tooShort => "premature end of input"
  | .invalid => "input contains invalid characters"
  | .outOfRange => "input is out of range"
  | .tooLong => "trailing input"

/-- The decimal digits of a number with zeros in front up to a width. -/
def padded (width n : Nat) : List Char :=
  let digits := Nat.toDigits 10 n
  List.replicate (width - digits.length) '0' ++ digits

/-- Four digits at least, and a sign for a year before 0 or after 9999. -/
def yearText (year : Int) : List Char :=
  if year < 0 then '-' :: padded 4 year.natAbs
  else if 9999 < year then '+' :: padded 4 year.natAbs
  else padded 4 year.natAbs

def toChars (d : Date) : List Char :=
  yearText d.year ++ '-' :: padded 2 d.month ++ '-' :: padded 2 d.day

def toText (d : Date) : String := String.ofList d.toChars

/-- The digits at the front, at most `limit` of them if there is a limit. -/
def readDigits (limit : Option Nat) (s : List Char) : Except TextError (Nat × List Char) :=
  let digits := (match limit with | some n => s.take n | none => s).takeWhile Char.isDigit
  if digits.isEmpty then .error (if s.isEmpty then .tooShort else .invalid)
  else .ok (Nat.ofDigitChars 10 digits 0, s.drop digits.length)

/-- A year with a sign may have any number of digits, one without a sign has four at most. -/
def readSignedYear : List Char → Except TextError (Int × List Char)
  | '-' :: s => do
    let (n, s) ← readDigits none s
    return (-(n : Int), s)
  | '+' :: s => do
    let (n, s) ← readDigits none s
    return (n, s)
  | s => do
    let (n, s) ← readDigits (some 4) s
    return (n, s)

/-- Space may stand in front of each number. A year has to fit 32 bits where it is read. -/
def readYear (s : List Char) : Except TextError (Int × List Char) := do
  let (year, s) ← readSignedYear (Text.trimStart s)
  if -0x80000000 ≤ year ∧ year < 0x80000000 then return (year, s) else .error .outOfRange

/-- One digit or two for a number from 1 to `most`. -/
def readPart (most : Nat) (s : List Char) : Except TextError (Nat × List Char) := do
  let (n, s) ← readDigits (some 2) (Text.trimStart s)
  if 1 ≤ n ∧ n ≤ most then return (n, s) else .error .outOfRange

def readDash : List Char → Except TextError (List Char)
  | [] => .error .tooShort
  | c :: s => if c = '-' then .ok s else .error .invalid

def ofChars (s : List Char) : Except TextError Date := do
  let (year, s) ← readYear s
  let (month, s) ← readPart 12 (← readDash s)
  let (day, s) ← readPart 31 (← readDash s)
  if s.isEmpty then
    match make? year month day with
    | some d => return d
    | none => .error .outOfRange
  else .error .tooLong

def ofText (text : String) : Except TextError Date := ofChars text.toList

end Planner.Date

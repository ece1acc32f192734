import Planner.Date
import Planner.Double.Rounding
import Planner.Toml.Reader.Quoted

/-! The values that are one word: numbers, truth values, dates and times of day. -/
namespace Planner.Toml

/-- The digits of a run in which single underscores may stand, each between two digits. -/
def digits? (isDigit : Char → Bool) : List Char → Option (List Char)
  | [] => none
  | [c] => if isDigit c then some [c] else none
  | c :: '_' :: rest => if isDigit c then (digits? isDigit rest).map (c :: ·) else none
  | c :: rest => if isDigit c then (digits? isDigit rest).map (c :: ·) else none

/-- Decimal digits without a needless zero in front. -/
def whole? (word : List Char) : Option (List Char) :=
  match digits? Char.isDigit word with
  | some ('0' :: _ :: _) => none
  | digits => digits

/-- Whether a word has a minus in front, and what follows the sign. -/
def sign : List Char → Bool × List Char
  | '-' :: word => (true, word)
  | '+' :: word => (false, word)
  | word => (false, word)

/-- The number that digits to a base spell. -/
def ofDigits (base : Nat) (digits : List Char) : Nat :=
  digits.foldl (fun n c => n * base + (Text.hexValue? c).getD 0) 0

def isDigitOf (base : Nat) (c : Char) : Bool :=
  match Text.hexValue? c with
  | some value => value < base
  | none => false

/-- A number without sign, to the base that stands in front of it, or to ten. -/
def natural? : List Char → Option Nat
  | '0' :: 'x' :: word => (digits? (isDigitOf 16) word).map (ofDigits 16)
  | '0' :: 'o' :: word => (digits? (isDigitOf 8) word).map (ofDigits 8)
  | '0' :: 'b' :: word => (digits? (isDigitOf 2) word).map (ofDigits 2)
  | word => (whole? word).map (ofDigits 10)

/-- Only a number to the base ten may have a sign. An integer has to fit 128 bits. -/
def integer? (word : List Char) : Option Int := do
  let (negative, digits) := sign word
  let n ← if digits.length = word.length then natural? word
    else (whole? digits).map (ofDigits 10)
  let value : Int := if negative then -(n : Int) else n
  if -0x80000000000000000000000000000000 ≤ value ∧ value < 0x100000000000000000000000000000000 then
    some value
  else none

/-- The parts of a number with a fraction or an exponent: all its digits, and the power of ten
that they are multiplied with. -/
def decimal? (word : List Char) : Option (Nat × Int) := do
  let mantissa := word.takeWhile fun c => c ≠ 'e' ∧ c ≠ 'E'
  let whole ← whole? (mantissa.takeWhile (· ≠ '.'))
  let fraction ← match mantissa.dropWhile (· ≠ '.') with
    | [] => some []
    | _ :: word => digits? Char.isDigit word
  let power : Int ← match word.drop mantissa.length with
    | [] => if mantissa.contains '.' then some 0 else none
    | _ :: word =>
      let (negative, word) := sign word
      (digits? Char.isDigit word).map fun digits =>
        if negative then -(ofDigits 10 digits : Int) else ofDigits 10 digits
  return (ofDigits 10 (whole ++ fraction), power - fraction.length)

/-- Whether a double can hold a number of that size. -/
def isFinite (n : Nat) (power : Int) : Bool :=
  let size := (Nat.toDigits 10 n).length + power
  if n = 0 ∨ size < 300 then true
  else if 320 < size then false
  else if 0 ≤ power then (Double.ofQuotient? false (n * Nat.pow 10 power.toNat) 1).isSome
  else (Double.ofQuotient? false n (Nat.pow 10 power.natAbs)).isSome

def isFloat (word : List Char) : Bool :=
  let digits := (sign word).2
  digits = ['i', 'n', 'f'] || digits = ['n', 'a', 'n'] ||
    match decimal? digits with
    | some (n, power) => isFinite n power
    | none => false

/-- What follows two digits that spell at most `most`. -/
def afterPair? (most : Nat) : List Char → Option (List Char)
  | a :: b :: s =>
    if a.isDigit ∧ b.isDigit ∧ ofDigits 10 [a, b] ≤ most then some s else none
  | _ => none

/-- What follows a day of the calendar. -/
def afterDate? (s : List Char) : Option (List Char) :=
  match s with
  | y :: y' :: y'' :: y''' :: '-' :: m :: m' :: '-' :: d :: d' :: rest =>
    let year := [y, y', y'', y''']
    if (year ++ [m, m', d, d']).all Char.isDigit then
      (Date.make? (ofDigits 10 year) (ofDigits 10 [m, m']) (ofDigits 10 [d, d'])).map fun _ => rest
    else none
  | _ => none

/-- What follows a fraction of a second, if there is one. -/
def afterFraction? : List Char → Option (List Char)
  | '.' :: s => match s.takeWhile Char.isDigit with
    | [] => none
    | _ => some (s.dropWhile Char.isDigit)
  | s => some s

/-- What follows hours and minutes, and perhaps seconds, of which a minute may have 61. -/
def afterTime? (s : List Char) : Option (List Char) := do
  match ← afterPair? 23 s with
  | ':' :: s => match ← afterPair? 59 s with
    | ':' :: s => do afterFraction? (← afterPair? 60 s)
    | s => some s
  | _ => none

/-- What follows an offset from universal time. -/
def afterOffset? (s : List Char) : Option (List Char) := do
  match ← afterPair? 23 s with
  | ':' :: s => afterPair? 59 s
  | _ => none

/-- Whether a word is a time of day, and in a date perhaps an offset after it. -/
def isTime (dated : Bool) (word : List Char) : Bool :=
  match afterTime? word with
  | none => false
  | some [] => true
  | some (c :: rest) =>
    dated && (if c = 'Z' ∨ c = 'z' then rest.isEmpty
      else (c = '+' ∨ c = '-') && afterOffset? rest = some [])

def isDate (word : List Char) : Bool := afterDate? word = some []

def isMoment (word : List Char) : Bool :=
  isTime false word || match afterDate? word with
    | some [] => true
    | some (c :: rest) => (c = 'T' || c = 't') && isTime true rest
    | none => false

/-- The value of a word. -/
def ofWord (word : List Char) : Except Fault Value :=
  if word = ['t', 'r', 'u', 'e'] then .ok (.bool true)
  else if word = ['f', 'a', 'l', 's', 'e'] then .ok (.bool false)
  else match integer? word with
    | some n => .ok (.integer n)
    | none =>
      if isFloat word then .ok (.float word)
      else if isMoment word then .ok (.moment word)
      else .error .malformed

/-- A character of a number, a truth value, a date or a time of day. -/
def isWordChar (c : Char) : Bool :=
  c.isAlphanum || c = '_' || c = '+' || c = '-' || c = '.' || c = ':'

/-- A word, with the next one if a date and a time of day stand side by side. -/
def readScalar : Reader Value := fun s => do
  let word := s.takeWhile isWordChar
  let rest := s.drop word.length
  match rest with
  | ' ' :: next =>
    let time := next.takeWhile isWordChar
    if isDate word && isTime true time then
      return (.moment (word ++ ' ' :: time), next.drop time.length)
    else return (← ofWord word, rest)
  | _ => return (← ofWord word, rest)

end Planner.Toml

import Planner.Double.Rounding
import Planner.Sql.Token
import Planner.Text.Blank
import Planner.Text.Letter

/-!
From the characters of a statement to its tokens, in one pass: a mode says what the characters
read last belong to, and each further character goes on with it or ends it.
-/
namespace Planner.Sql

/-- What the scan stands in. Characters gathered so far are kept last first. -/
inductive Mode
  /-- Between tokens. -/
  | between
  /-- In a text literal. -/
  | literal (chars : List Char)
  /-- After a quote in a text literal, which ends it unless another quote follows. -/
  | literalQuote (chars : List Char)
  /-- In a quoted name. -/
  | quotedName (chars : List Char)
  | word (chars : List Char)
  /-- In a number that began at the given offset. -/
  | number (start : Nat) (first : Char) (chars : List Char)
  /-- After a minus, which has to have a digit behind it. -/
  | minus
  /-- After `>` or `<`, which has to have `=` behind it. -/
  | bound (c : Char)

/-- A number without exponent: an integer where 64 bits with a sign hold it, or else the nearest
double. -/
def numberOf? (negative : Bool) (digits : List Char) : Option Number :=
  match digits.dropWhile Char.isDigit with
  | [] =>
    let n := Nat.ofDigitChars 10 digits 0
    let value : Int := if negative then -(n : Int) else n
    if h : -0x8000000000000000 ≤ value ∧ value < 0x8000000000000000 then
      some (.integer ⟨value, h.1, Int.lt_trans h.2 (by decide)⟩)
    else (Double.ofQuotient? negative n 1).map .double
  | _ :: fraction =>
    if fraction.all Char.isDigit then
      let whole := digits.takeWhile Char.isDigit
      let n := Nat.ofDigitChars 10 (whole ++ fraction) 0
      (Double.ofQuotient? negative n (Nat.pow 10 fraction.length)).map .double
    else none

def numberToken (start : Nat) (first : Char) (chars : List Char) : Except ParseError Token :=
  let number := match chars.reverse with
    | '-' :: digits => numberOf? true digits
    | digits => numberOf? false digits
  match number with
  | some n => .ok (.number n)
  | none => .error (.unexpectedChar first start)

/-- The token of a single mark. -/
def mark? (c : Char) : Option Token :=
  if c = '?' then some .placeholder
  else if c = '*' then some .star
  else if c = ',' then some .comma
  else if c = '(' then some .leftParen
  else if c = ')' then some .rightParen
  else if c = ';' then some .semicolon
  else if c = '=' then some .equals
  else none

/-- What a character does between tokens. -/
def start (offset : Nat) (c : Char) : Except ParseError (List Token × Mode) :=
  if Text.isBlank c then .ok ([], .between)
  else match mark? c with
    | some token => .ok ([token], .between)
    | none =>
      if c = '>' || c = '<' then .ok ([], .bound c)
      else if c = '\'' then .ok ([], .literal [])
      else if c = '"' then .ok ([], .quotedName [])
      else if c.isDigit then .ok ([], .number offset c [c])
      else if c = '-' then .ok ([], .minus)
      else if Text.isLetter c || c = '_' then .ok ([], .word [c])
      else .error (.unexpectedChar c offset)

def textOf (chars : List Char) : String := String.ofList chars.reverse

/-- The token that is complete when `c` comes after it, and then what `c` does on its own. -/
def endToken (token : Token) (offset : Nat) (c : Char) : Except ParseError (List Token × Mode) :=
  do
    let (tokens, mode) ← start offset c
    return (token :: tokens, mode)

/-- Takes in the character at an offset: the tokens it completes, and the mode after it. -/
def feed (mode : Mode) (offset : Nat) (c : Char) : Except ParseError (List Token × Mode) :=
  match mode with
  | .between => start offset c
  | .literal chars =>
    .ok ([], if c = '\'' then .literalQuote chars else .literal (c :: chars))
  | .literalQuote chars =>
    if c = '\'' then .ok ([], .literal (c :: chars)) else endToken (.text (textOf chars)) offset c
  | .quotedName chars =>
    if c = '"' then .ok ([.word (textOf chars)], .between) else .ok ([], .quotedName (c :: chars))
  | .word chars =>
    if Text.isLetterOrNumeral c || c = '_' then .ok ([], .word (c :: chars))
    else endToken (.word (textOf chars)) offset c
  | .number begin first chars =>
    if c.isDigit || c = '.' then .ok ([], .number begin first (c :: chars))
    else do endToken (← numberToken begin first chars) offset c
  | .minus =>
    if c.isDigit then .ok ([], .number (offset - 1) '-' [c, '-'])
    else .error (.unexpectedChar '-' (offset - 1))
  | .bound b =>
    if c = '=' then .ok ([if b = '>' then .atLeast else .atMost], .between)
    else .error (.unexpectedChar b (offset - 1))

/-- The tokens that the end of the text completes. -/
def finish (mode : Mode) (offset : Nat) : Except ParseError (List Token) :=
  match mode with
  | .between => .ok []
  | .literal _ | .quotedName _ => .error .unterminatedText
  | .literalQuote chars => .ok [.text (textOf chars)]
  | .word chars => .ok [.word (textOf chars)]
  | .number begin first chars => do return [← numberToken begin first chars]
  | .minus => .error (.unexpectedChar '-' (offset - 1))
  | .bound b => .error (.unexpectedChar b (offset - 1))

def scanFrom (mode : Mode) (offset : Nat) : List Char → Except ParseError (List Token)
  | [] => finish mode offset
  | c :: rest => do
    let (tokens, mode) ← feed mode offset c
    return tokens ++ (← scanFrom mode (offset + 1) rest)

def scan (sql : String) : Except ParseError (List Token) := scanFrom .between 0 sql.toList

end Planner.Sql

import Planner.Text.Hex
import Planner.Toml.Basic
import Planner.Toml.Quoted

/-! Reading texts in quotes. -/
namespace Planner.Toml

/-- Reads something from the front of a text and returns what is left. -/
abbrev Reader (α : Type) := List Char → Except Fault (α × List Char)

def isBlank (c : Char) : Bool := c = ' ' || c = '\t'

/-- Passes over spaces and the ends of lines. -/
def skipLineEnds : List Char → List Char
  | '\r' :: '\n' :: s => skipLineEnds s
  | c :: s => if isBlank c || c = '\n' then skipLineEnds s else c :: s
  | [] => []

/-- What follows the end of a line, if the text begins with one. -/
def lineEnd? : List Char → Option (List Char)
  | '\n' :: s => some s
  | '\r' :: '\n' :: s => some s
  | _ => none

/-- The character that so many hexadecimal digits name. -/
def readCode (width : Nat) : Reader Char := fun s =>
  match (s.take width).mapM Text.hexValue? with
  | none => .error .malformed
  | some digits =>
    let code := digits.foldl (fun n digit => n * 16 + digit) 0
    if digits.length = width ∧ code.isValidChar then .ok (Char.ofNat code, s.drop width)
    else .error .malformed

/-- What a backslash and one letter stand for. -/
def shortEscape? (c : Char) : Option Char :=
  if c = '"' ∨ c = '\\' then some c
  else if c = 'b' then some '\x08'
  else if c = 'e' then some '\x1b'
  else if c = 'f' then some '\x0c'
  else if c = 'n' then some '\n'
  else if c = 'r' then some '\r'
  else if c = 't' then some '\t'
  else none

/-- The character that an escape stands for, after its backslash. -/
def readEscape : Reader Char
  | [] => .error .malformed
  | 'x' :: s => readCode 2 s
  | 'u' :: s => readCode 4 s
  | 'U' :: s => readCode 8 s
  | c :: s => match shortEscape? c with
    | some e => .ok (e, s)
    | none => .error .malformed

/-- What is left after the closing marks, and the marks of the text in front of them: up to two
marks more than it takes to end a text of several lines belong to it. -/
def closing? (q : Quoting) (s : List Char) : Option (List Char × List Char) :=
  let width := q.delimiter.length
  let marks := s.takeWhile (· = q.mark)
  if marks.length < width then none
  else
    let inner := min (marks.length - width) (width - 1)
    some (marks.take inner, s.drop (inner + width))

/-- The characters up to the closing marks; `steps` bounds their number. -/
def readQuotedLoop (q : Quoting) : (steps : Nat) → Reader (List Char)
  | 0, _ => .error .malformed
  | _, [] => .error .malformed
  | steps + 1, c :: s =>
    match closing? q (c :: s) with
    | some (inner, rest) => .ok (inner, rest)
    | none =>
      if c = '\\' ∧ q.escapes then
        match q.spansLines, lineEnd? (s.dropWhile isBlank) with
        | true, some rest => readQuotedLoop q steps (skipLineEnds rest)
        | _, _ => do
          let (e, s) ← readEscape s
          let (chars, s) ← readQuotedLoop q steps s
          return (e :: chars, s)
      else if !isControl c || q.spansLines && (lineEnd? (c :: s)).isSome then do
        let (chars, s) ← readQuotedLoop q steps s
        return (c :: chars, s)
      else .error .malformed

/-- A text after its opening marks. A line that ends right there is no part of the text. -/
def readBody (q : Quoting) : Reader String := fun s => do
  let s := if q.spansLines then (lineEnd? s).getD s else s
  let (chars, rest) ← readQuotedLoop q (s.length + 1) s
  return (String.ofList chars, rest)

/-- The quotes that a text begins with, and what stands between and behind them. -/
def opening? : List Char → Option (Quoting × List Char)
  | '"' :: '"' :: '"' :: s => some (.basicLines, s)
  | '"' :: s => some (.basic, s)
  | '\'' :: '\'' :: '\'' :: s => some (.literalLines, s)
  | '\'' :: s => some (.literal, s)
  | _ => none

end Planner.Toml

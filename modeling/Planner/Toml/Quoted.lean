/-!
Texts in quotes. There are four forms: between double quotes, where a backslash begins an escape,
or single quotes, where nothing does; and between one mark, or three, where a line may end.
-/
namespace Planner.Toml

inductive Quoting
  | basic
  | literal
  | basicLines
  | literalLines
deriving DecidableEq

namespace Quoting

def escapes : Quoting → Bool
  | .basic | .basicLines => true
  | .literal | .literalLines => false

def spansLines : Quoting → Bool
  | .basicLines | .literalLines => true
  | .basic | .literal => false

def mark (q : Quoting) : Char := if q.escapes then '"' else '\''

/-- What stands in front of the text and after it. -/
def delimiter (q : Quoting) : List Char := List.replicate (if q.spansLines then 3 else 1) q.mark

end Quoting

/-- A control character other than a tab. -/
def isControl (c : Char) : Bool := c.toNat < 32 && c ≠ '\t' || c.toNat = 127

/-- The length of the longest run of a mark, of which so many were seen last. -/
def longestRun (mark : Char) (seen : Nat) : List Char → Nat
  | [] => seen
  | c :: rest =>
    if c = mark then longestRun mark (seen + 1) rest else max seen (longestRun mark 0 rest)

/-- Whether a text can stand between these quotes without any escape. -/
def Quoting.fits (q : Quoting) (text : List Char) : Bool :=
  text.all (fun c => !isControl c || c = '\n')
    && !(q.escapes && text.contains '\\')
    && longestRun q.mark 0 text < q.delimiter.length
    && (q.spansLines || !text.contains '\n')

/-- The quotes in which a text is written: the plainest ones that need no escape, or else double
quotes. -/
def Quoting.of (text : List Char) : Quoting :=
  match [.basic, .literal, .basicLines, .literalLines].find? (Quoting.fits · text) with
  | some q => q
  | none => if text.contains '\n' then .basicLines else .basic

/-- A character that does not stand for itself between double quotes. -/
def escapeChar (c : Char) : List Char :=
  if c = '"' then ['\\', '"']
  else if c = '\\' then ['\\', '\\']
  else if c = '\x08' then ['\\', 'b']
  else if c = '\t' then ['\\', 't']
  else if c = '\n' then ['\\', 'n']
  else if c = '\x0c' then ['\\', 'f']
  else if c = '\r' then ['\\', 'r']
  else if isControl c then
    ['\\', 'u', '0', '0', (c.toNat / 16).digitChar, (c.toNat % 16).digitChar.toUpper]
  else [c]

/-- The text between double quotes, where two marks may follow each other if it takes three to end
the text; `run` counts the marks seen last. -/
def escape (q : Quoting) (run : Nat) : List Char → List Char
  | [] => []
  | c :: rest =>
    if c = '"' ∧ run + 1 < q.delimiter.length then c :: escape q (run + 1) rest
    else if c = '\n' ∧ q.spansLines then c :: escape q 0 rest
    else escapeChar c ++ escape q 0 rest

/-- A text in quotes. A line break goes in front if the text has any, and is not part of it. -/
def quote (text : List Char) : List Char :=
  let q := Quoting.of text
  let start := if q.spansLines ∧ text.contains '\n' then ['\n'] else []
  q.delimiter ++ start ++ (if q.escapes then escape q 0 text else text) ++ q.delimiter

end Planner.Toml

import Planner.Json.Basic

/-! The text of a JSON value: compact, and indented by two spaces. -/
namespace Planner.Json

/-- Quotes, backslashes and control characters are escaped, all else stands as it is. -/
def escapeChar (c : Char) : List Char :=
  if c = '"' then ['\\', '"']
  else if c = '\\' then ['\\', '\\']
  else if c = '\x08' then ['\\', 'b']
  else if c = '\t' then ['\\', 't']
  else if c = '\n' then ['\\', 'n']
  else if c = '\x0c' then ['\\', 'f']
  else if c = '\r' then ['\\', 'r']
  else if c.toNat < 32 then
    ['\\', 'u', '0', '0', (c.toNat / 16).digitChar, (c.toNat % 16).digitChar]
  else [c]

def quote (s : String) : List Char := '"' :: s.toList.flatMap escapeChar ++ ['"']

/-- A value that is neither a list nor an object, as text. -/
def boolText (b : Bool) : List Char := if b then ['t', 'r', 'u', 'e'] else ['f', 'a', 'l', 's', 'e']

def nullText : List Char := ['n', 'u', 'l', 'l']

mutual

/-- The compact text, without any space. -/
def render : Json → List Char
  | .null => nullText
  | .bool b => boolText b
  | .number n => n.toText
  | .text s => quote s
  | .list [] => ['[', ']']
  | .list (item :: rest) => '[' :: render item ++ renderItems rest ++ [']']
  | .object [] => ['{', '}']
  | .object ((key, value) :: rest) =>
    '{' :: quote key ++ ':' :: render value ++ renderFields rest ++ ['}']

/-- The items after the first, each with the comma in front of it. -/
def renderItems : List Json → List Char
  | [] => []
  | item :: rest => ',' :: render item ++ renderItems rest

def renderFields : List (String × Json) → List Char
  | [] => []
  | (key, value) :: rest => ',' :: quote key ++ ':' :: render value ++ renderFields rest

end

/-- A line break and the indentation of the given level. -/
def newLine (level : Nat) : List Char := '\n' :: List.replicate (2 * level) ' '

mutual

/-- The text with a line for each item and field; empty lists and objects stay on their line. -/
def renderPretty (level : Nat) : Json → List Char
  | .null => nullText
  | .bool b => boolText b
  | .number n => n.toText
  | .text s => quote s
  | .list [] => ['[', ']']
  | .list (item :: rest) =>
    '[' :: newLine (level + 1) ++ renderPretty (level + 1) item
      ++ renderPrettyItems (level + 1) rest ++ newLine level ++ [']']
  | .object [] => ['{', '}']
  | .object ((key, value) :: rest) =>
    '{' :: newLine (level + 1) ++ quote key ++ ':' :: ' ' :: renderPretty (level + 1) value
      ++ renderPrettyFields (level + 1) rest ++ newLine level ++ ['}']

def renderPrettyItems (level : Nat) : List Json → List Char
  | [] => []
  | item :: rest =>
    ',' :: newLine level ++ renderPretty level item ++ renderPrettyItems level rest

def renderPrettyFields (level : Nat) : List (String × Json) → List Char
  | [] => []
  | (key, value) :: rest =>
    ',' :: newLine level ++ quote key ++ ':' :: ' ' :: renderPretty level value
      ++ renderPrettyFields level rest

end

def toText (value : Json) : String := String.ofList value.render

def toPrettyText (value : Json) : String := String.ofList (value.renderPretty 0)

end Planner.Json

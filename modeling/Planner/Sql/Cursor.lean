import Planner.Json.Basic
import Planner.Sql.Token
import Planner.Table

/-! What is left of a statement, and the steps that every form of statement is read with. -/
namespace Planner.Sql

/-- The tokens ahead, the parameters that no placeholder took yet, and how many placeholders
there were. -/
structure Cursor where
  tokens : List Token
  unbound : List Json
  placeholders : Nat

/-- A step reads something or says what is wrong. -/
abbrev Step (α : Type) := Cursor → Except ParseError (α × Cursor)

namespace Cursor

def found (cursor : Cursor) : String :=
  match cursor.tokens with
  | token :: _ => token.describe
  | [] => "end of statement"

def expected {α : Type} (wanted : String) (cursor : Cursor) : Except ParseError α :=
  .error (.expected wanted cursor.found)

/-- Takes a keyword, in letters of any case, if it is next. -/
def keyword? (name : String) (cursor : Cursor) : Option Cursor :=
  match cursor.tokens with
  | .word w :: rest =>
    if Text.sameIgnoringCase w name then some { cursor with tokens := rest } else none
  | _ => none

/-- Takes a token if it is next. -/
def token? (token : Token) (cursor : Cursor) : Option Cursor :=
  match cursor.tokens with
  | next :: rest => if next = token then some { cursor with tokens := rest } else none
  | [] => none

def keyword (name : String) (cursor : Cursor) : Except ParseError Cursor :=
  match cursor.keyword? name with
  | some rest => .ok rest
  | none => cursor.expected name

def token (token : Token) (cursor : Cursor) : Except ParseError Cursor :=
  match cursor.token? token with
  | some rest => .ok rest
  | none => cursor.expected token.describe

def identifier : Step String := fun cursor =>
  match cursor.tokens with
  | .word name :: rest => .ok (name, { cursor with tokens := rest })
  | _ => cursor.expected "identifier"

def table : Step Table := fun cursor => do
  let (name, cursor) ← cursor.identifier
  match Table.ofName? name with
  | some table => return (table, cursor)
  | none => .error (.unknownTable name)

/-- The value that a word stands for. -/
def wordValue? (w : String) : Option Json :=
  if Text.sameIgnoringCase w "null" then some .null
  else if Text.sameIgnoringCase w "true" then some (.bool true)
  else if Text.sameIgnoringCase w "false" then some (.bool false)
  else none

/-- A literal, or a placeholder, which takes the next parameter, or null when there is none. -/
def value : Step Json := fun cursor =>
  match cursor.tokens with
  | .placeholder :: rest =>
    .ok (cursor.unbound.headD .null,
      ⟨rest, cursor.unbound.tail, cursor.placeholders + 1⟩)
  | .text s :: rest => .ok (.text s, { cursor with tokens := rest })
  | .number n :: rest => .ok (.number n, { cursor with tokens := rest })
  | .word w :: rest => match wordValue? w with
    | some v => .ok (v, { cursor with tokens := rest })
    | none => cursor.expected "'?' or a literal value"
  | _ => cursor.expected "'?' or a literal value"

/-- One item or more, with a separator between them; `steps` bounds the number of separators. -/
def separatedLoop {α : Type} (item : Step α) (separator : Cursor → Option Cursor) :
    (steps : Nat) → Step (List α)
  | 0, cursor => do
    let (x, cursor) ← item cursor
    return ([x], cursor)
  | steps + 1, cursor => do
    let (x, cursor) ← item cursor
    match separator cursor with
    | none => return ([x], cursor)
    | some cursor =>
      let (xs, cursor) ← separatedLoop item separator steps cursor
      return (x :: xs, cursor)

/-- One item or more, with a separator between them, of which each takes a token. -/
def separated {α : Type} (item : Step α) (separator : Cursor → Option Cursor) : Step (List α) :=
  fun cursor => separatedLoop item separator cursor.tokens.length cursor

def commaSeparated {α : Type} (item : Step α) : Step (List α) :=
  separated item (token? .comma)

end Cursor
end Planner.Sql

import Planner.Json.Fault

/-! How a JSON value is read as an entity with named columns. -/
namespace Planner

open Json (Fault)

/-- A column of an entity: whether it has to be there, and which values it refuses. -/
structure Column where
  name : String
  required : Bool
  check : Json → Except Fault Unit

/-- The columns of an entity in the order in which they are declared. -/
structure Layout where
  name : String
  columns : List Column

namespace Column

def checked {α : Type} (read : Json → Except Fault α) (v : Json) : Except Fault Unit := do
  let _ ← read v
  return ()

def mandatory {α : Type} (name : String) (read : Json → Except Fault α) : Column :=
  ⟨name, true, checked read⟩

def optional {α : Type} (name : String) (read : Json → Except Fault α) : Column :=
  ⟨name, false, checked read⟩

end Column

namespace Layout

/-- Checks the fields of a row one after the other; fields that are no column are passed over. -/
def checkFields (columns : List Column) : Record → Except Fault Unit
  | [] => .ok ()
  | (name, value) :: rest => do
    match columns.find? (·.name = name) with
    | some column => column.check value
    | none => .ok ()
    checkFields columns rest

/-- The row whose columns, from the given index on, have the given values in turn. -/
def rowOfItems (layout : Layout) (index : Nat) : List Column → List Json → Except Fault Record
  | [], [] => .ok []
  | [], rest => .error (.tooLong (index + rest.length))
  | column :: columns, [] =>
    if column.required then
      .error (.tooShort index s!"struct {layout.name} with {layout.columns.length} elements")
    else rowOfItems layout (index + 1) columns []
  | column :: columns, value :: rest => do
    column.check value
    return (column.name, value) :: (← rowOfItems layout (index + 1) columns rest)

/-- The row that a value stands for, with every field checked: an object, or a list of the
columns in order. -/
def row (layout : Layout) : Json → Except Fault Record
  | .object fields => do
    checkFields layout.columns fields
    return fields
  | .list items => layout.rowOfItems 0 layout.columns items
  | other => .error (.wrongType other.found ("struct " ++ layout.name))

end Layout

namespace Record

/-- A field that has to be there. -/
def required {α : Type} (name : String) (read : Json → Except Fault α) (row : Record) :
    Except Fault α :=
  match row.get? name with
  | some value => read value
  | none => .error (.missingField name)

/-- A field that may be missing, and what it is then. -/
def optional {α : Type} (name : String) (absent : α) (read : Json → Except Fault α)
    (row : Record) : Except Fault α :=
  match row.get? name with
  | some value => read value
  | none => .ok absent

end Record

namespace Json

def asText : Json → Except Fault String
  | .text s => .ok s
  | other => .error (.wrongType other.found "a string")

/-- A text, or none for null. -/
def asOptionalText : Json → Except Fault (Option String)
  | .null => .ok none
  | other => do return some (← other.asText)

/-- A boolean that may be stored as a number; null is false. -/
def asSwitch : Json → Except Fault Bool
  | .bool b => .ok b
  | .number n => .ok !n.toDouble.isZero
  | .null => .ok false
  | other => .error (.notSwitch other)

def asListOf {α : Type} (read : Json → Except Fault α) : Json → Except Fault (List α)
  | .list items => items.mapM read
  | other => .error (.wrongType other.found "a sequence")

def ofOptionalText : Option String → Json
  | some s => .text s
  | none => .null

def ofTexts (texts : List String) : Json := .list (texts.map .text)

end Json
end Planner

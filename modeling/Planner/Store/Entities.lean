import Planner.Workspace

/-! Entities read from the rows of their tables, and changed there. -/
namespace Planner

open Json (Fault)

/-- Reads a row of a table as an entity. -/
def decodeRow {α : Type} (table : Table) (read : Json → Except Fault α) (row : Record) :
    Except DatabaseError α :=
  (read (.object row)).mapError (.decode table)

/-- The rows with a text in a column. -/
def Predicate.hasText (column text : String) : Predicate := .equal column (.text text)

/-- A text that occurs anywhere in a column, in letters of any case. -/
def Predicate.contains (column text : String) : Predicate := .like column ("%" ++ text ++ "%")

namespace Select

def byId (table : Table) (id : String) : Select := ⟨table, some (.hasText "id" id), none, none⟩

def filtered (select : Select) (predicate : Predicate) : Select :=
  { select with filter := some predicate }

def ascending (select : Select) (column : String) : Select :=
  { select with order := some ⟨column, .ascending⟩ }

def descending (select : Select) (column : String) : Select :=
  { select with order := some ⟨column, .descending⟩ }

end Select

namespace Store

variable {α : Type}

/-- The selected rows as entities. -/
def entities (read : Json → Except Fault α) (select : Select) (store : Store) :
    Except DatabaseError (List α) := do
  (← store.query select).mapM (decodeRow select.table read)

/-- The first selected row as an entity. -/
def entity? (read : Json → Except Fault α) (select : Select) (store : Store) :
    Except DatabaseError (Option α) := do
  match ← store.queryOne select with
  | some row => return some (← decodeRow select.table read row)
  | none => return none

end Store

/-- A column that is set if there is something to set it to. -/
def assign {α : Type} (column : String) (toJson : α → Json) (value : Option α) :
    Option (String × Json) :=
  value.map fun a => (column, toJson a)

namespace Workspace

/-- Runs one statement: how many rows it touched. -/
def run (statement : Statement) : Action DatabaseError Nat := change (·.apply statement)

/-- Adds a row with the given columns. -/
def append (table : Table) (columns : List (String × Json)) : Action DatabaseError Unit := do
  let _ ← run (.insertFields table columns .append)

/-- Sets columns of the row with an id; where there is nothing to set nothing is run. -/
def assignById (table : Table) (id : String) (assignments : List (String × Json)) :
    Action DatabaseError Nat :=
  if assignments.isEmpty then return 0 else run (.update table assignments (.text id))

/-- Removes the rows with a text in a column. -/
def removeWhere (table : Table) (column text : String) : Action DatabaseError Nat :=
  run (.delete table (some (.hasText column text)))

end Workspace
end Planner

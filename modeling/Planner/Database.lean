import Planner.Sql.Parse
import Planner.Store.Rows

/-! Statements run on the tables of a store. -/
namespace Planner

inductive DatabaseError
  | store (cause : StoreError)
  | parse (cause : Sql.ParseError)
  | wrongMode (kind mode : String)
  | missingNaturalKey (table : Table) (column : String)
  | decode (table : Table) (fault : Json.Fault)
  /-- A window of dates that reaches past the last day that can be written. -/
  | outsideCalendar

def DatabaseError.message : DatabaseError → String
  | .store cause => s!"Storage error: {cause.message}"
  | .parse cause => s!"Invalid statement: {cause.message}"
  | .wrongMode kind mode => s!"{kind} cannot be run with {mode}"
  | .missingNaturalKey table column =>
    s!"Upsert into '{table.name}' is missing natural key column '{column}'"
  | .decode table fault => s!"Failed to decode row of '{table.name}': {fault.message}"
  | .outsideCalendar => "The window leaves the calendar"

/-- A batch that stopped: where, after how many statements, and why. -/
structure BatchError where
  index : Nat
  applied : Nat
  cause : DatabaseError

def BatchError.message (e : BatchError) : String :=
  s!"Batch failed at statement {e.index} after {e.applied} statement(s) were applied: {e.cause.message}"

namespace Store

def tableRows (table : Table) (store : Store) : Except DatabaseError (List Record) :=
  (store.rows table.name).mapError .store

def setTableRows (table : Table) (rows : List Record) (store : Store) :
    Except DatabaseError Store :=
  (store.setRows table.name rows).mapError .store

/-- The columns of the natural key with the values that a row has for them. -/
def keyOf (table : Table) (row : Record) : Except DatabaseError (List (String × Json)) :=
  table.naturalKey.mapM fun column =>
    match row.get? column with
    | some value => .ok (column, value)
    | none => .error (.missingNaturalKey table column)

/-- Whether a row has the given values in the given columns. -/
def agrees (key : List (String × Json)) (row : Record) : Bool :=
  key.all fun (column, value) => match row.get? column with
    | some v => v.same value
    | none => false

/-- Puts a row in the place of the first one with the given key. -/
def replaceFirst (key : List (String × Json)) (row : Record) : List Record → List Record
  | [] => []
  | old :: rest => if agrees key old then row :: rest else old :: replaceFirst key row rest

/-- The rows after an insertion that minds the natural key, or none if nothing is to be written. -/
def upserted (key : List (String × Json)) (row : Record) (onConflict : OnConflict)
    (rows : List Record) : Option (List Record) :=
  if rows.any (agrees key) then
    if onConflict = .ignore then none else some (replaceFirst key row rows)
  else some (rows ++ [row])

/-- Inserts a row: how many rows were written, and the store after it. -/
def insert (table : Table) (row : Record) (onConflict : OnConflict) (store : Store) :
    Except DatabaseError (Nat × Store) := do
  let rows ← store.tableRows table
  if onConflict = .append then
    return (1, ← store.setTableRows table (rows ++ [row]))
  else
    let key ← keyOf table row
    match upserted key row onConflict rows with
    | some rows => return (1, ← store.setTableRows table rows)
    | none => return (0, store)

/-- Sets the fields of the first row that has the given id. -/
def assignFirst (assignments : List (String × Json)) (id : Json) :
    List Record → Option (List Record)
  | [] => none
  | row :: rest =>
    if agrees [("id", id)] row then
      some (assignments.foldl (fun row (column, value) => row.set column value) row :: rest)
    else (assignFirst assignments id rest).map (row :: ·)

def update (table : Table) (assignments : List (String × Json)) (id : Json) (store : Store) :
    Except DatabaseError (Nat × Store) := do
  let rows ← store.tableRows table
  match assignFirst assignments id rows with
  | some rows => return (1, ← store.setTableRows table rows)
  | none => return (0, store)

/-- The rows that a deletion keeps. -/
def kept (filter : Option Predicate) (rows : List Record) : List Record :=
  match filter with
  | some predicate => rows.filter (!predicate.holds ·)
  | none => []

def delete (table : Table) (filter : Option Predicate) (store : Store) :
    Except DatabaseError (Nat × Store) := do
  let rows ← store.tableRows table
  let remaining := kept filter rows
  let removed := rows.length - remaining.length
  if removed = 0 then return (0, store)
  else return (removed, ← store.setTableRows table remaining)

/-- Runs a statement that changes a table: how many rows it touched, and the store after it. -/
def apply (statement : Statement) (store : Store) : Except DatabaseError (Nat × Store) :=
  match statement with
  | .insert table columns values onConflict =>
    store.insert table (Record.ofFields (columns.zip values)) onConflict
  | .update table assignments id => store.update table assignments id
  | .delete table filter => store.delete table filter
  | .select _ => .error (.wrongMode "SELECT" "execute")

/-- Runs statements in order up to the first that fails; what ran before it stays. -/
def applyFrom (index touched : Nat) : List Statement → Store → Except BatchError Nat × Store
  | [], store => (.ok touched, store)
  | statement :: rest, store =>
    match store.apply statement with
    | .ok (count, store) => applyFrom (index + 1) (touched + count) rest store
    | .error cause => (.error ⟨index, index, cause⟩, store)

def applyBatch (statements : List Statement) (store : Store) : Except BatchError Nat × Store :=
  applyFrom 0 0 statements store

def query (select : Select) (store : Store) : Except DatabaseError (List Record) := do
  return select.evaluate (← store.tableRows select.table)

def queryOne (select : Select) (store : Store) : Except DatabaseError (Option Record) := do
  return (← store.query select).head?

/-- Reads a selection; `mode` names what any other statement cannot be run with. -/
def parseSelect (mode sql : String) (parameters : List Json) : Except DatabaseError Select := do
  match ← (Sql.parse sql parameters).mapError .parse with
  | .select s => return s
  | other => .error (.wrongMode other.kind mode)

def execute (sql : String) (parameters : List Json) (store : Store) :
    Except DatabaseError (Nat × Store) := do
  store.apply (← (Sql.parse sql parameters).mapError .parse)

def fetchOne (sql : String) (parameters : List Json) (store : Store) :
    Except DatabaseError (Option Record) := do
  store.queryOne (← parseSelect "fetch_one" sql parameters)

def fetchAll (sql : String) (parameters : List Json) (store : Store) :
    Except DatabaseError (List Record) := do
  store.query (← parseSelect "fetch_all" sql parameters)

/-- The rows that the settings have when they are found empty. -/
def defaultSettings : List Record :=
  [[("key", .text "theme"), ("value", .text "light")],
   [("key", .text "colorScheme"), ("value", .text "blue")]]

/-- Writes an empty list of rows for every table that has no text, up to the first refusal. -/
def createMissing : List Table → Store → Except StoreError Unit × Store
  | [], store => (.ok (), store)
  | table :: rest, store =>
    if (store.text? table.name).isSome then createMissing rest store
    else match store.setRows table.name [] with
      | .ok store => createMissing rest store
      | .error e => (.error e, store)

/-- Writes the default settings if there are none. -/
def seedSettings (store : Store) : Except StoreError Unit × Store :=
  match store.rows Table.settings.name with
  | .error e => (.error e, store)
  | .ok [] => match store.setRows Table.settings.name defaultSettings with
    | .ok store => (.ok (), store)
    | .error e => (.error e, store)
  | .ok _ => (.ok (), store)

/-- Makes a store ready: every table has a text, and the settings have rows. -/
def prepare (store : Store) : Except DatabaseError Unit × Store :=
  match createMissing Table.all store with
  | (.ok (), store) =>
    let (result, store) := seedSettings store
    (result.mapError .store, store)
  | (.error e, store) => (.error (.store e), store)

end Store
end Planner

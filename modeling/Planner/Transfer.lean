import Planner.Store.Entities
import Planner.Transfer.Reader

/-! Everything exported to one document, and replaced by one. -/
namespace Planner

inductive TransferError
  | unreadable (fault : Json.Fault)
  | rowWithoutKey (table : Table) (index : Nat) (column : String)
  | database (cause : DatabaseError)
  | batch (cause : BatchError)

def TransferError.message : TransferError → String
  | .unreadable fault => s!"Invalid import document: {fault.message}"
  | .rowWithoutKey table index column =>
    s!"Invalid import document: {table.name} row {index} has no '{column}'"
  | .database cause => s!"Database error: {cause.message}"
  | .batch cause => s!"Import stopped part way: {cause.message}"

namespace Transfer

/-- The version that exported documents bear. -/
def exportVersion : String := "1.0.0"

/-- Every table as it is. -/
def sections (store : Store) : Except DatabaseError Sections := do
  return ⟨← Table.all.mapM fun table => do
    return (table, some (← store.query (.everything table)))⟩

def snapshot (now : Instant) (store : Store) : Except DatabaseError Document := do
  return ⟨exportVersion, now.toText, ← sections store⟩

def snapshotText (now : Instant) (store : Store) : Except TransferError String := do
  return (← (snapshot now store).mapError .database).toJson.toPrettyText

/-- Every table but the settings is emptied. -/
def clearings : List Statement :=
  (Table.all.filter (· ≠ .settings)).map fun table => .delete table none

/-- The insertions of rows from the given index on, each of which needs its natural key. -/
def insertions (table : Table) (index : Nat) : List Record → Except TransferError (List Statement)
  | [] => .ok []
  | row :: rest =>
    match table.naturalKey.find? (!row.has ·) with
    | some column => .error (.rowWithoutKey table index column)
    | none => do
      let onConflict : OnConflict := if table = .settings then .replace else .append
      return .insertFields table row onConflict :: (← insertions table (index + 1) rest)

/-- The insertions for all sections that a document has, table by table. -/
def refillings (data : Sections) : List Table → Except TransferError (List Statement)
  | [] => .ok []
  | table :: rest => do
    let first ← match data.rows? table with
      | some rows => insertions table 0 rows
      | none => pure []
    return first ++ (← refillings data rest)

/-- Replaces the data by that of a document, after the whole document was checked; settings are
set one by one. The result is the number of rows restored. -/
def restore (document : Document) : Action TransferError Nat := fun w =>
  match refillings document.data Table.all with
  | .error e => .error e w
  | .ok insertions =>
    match w.store.applyBatch (clearings ++ insertions) with
    | (.ok _, store) => .ok insertions.length { w with store }
    | (.error e, store) => .error (.batch e) { w with store }

def restoreText (text : String) : Action TransferError Nat := fun w =>
  match documentOfText text with
  | .ok document => restore document w
  | .error fault => .error (.unreadable fault) w

end Transfer
end Planner

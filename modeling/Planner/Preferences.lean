import Planner.Entity.Settings
import Planner.Store.Entities

/-! The settings as they are stored: a row for each, with a key and a value. -/
namespace Planner.Preferences

open Workspace

/-- The rows whose key and value are texts, in stored order. -/
def entries (store : Store) : Except DatabaseError (List (String × String)) := do
  return (← store.query (.everything .settings)).filterMap fun row =>
    match row.get? "key", row.get? "value" with
    | some (.text key), some (.text value) => some (key, value)
    | _, _ => none

/-- The settings; of several rows with one key the last counts. -/
def get (store : Store) : Except DatabaseError Settings := do
  let fields := (← entries store).map fun (key, value) => (key, Json.text value)
  decodeRow .settings Settings.ofJson (Record.ofFields fields)

def set (key : SettingKey) (value : String) : Action DatabaseError Unit := do
  let _ ← run (.insertFields .settings [("key", .text key.name), ("value", .text value)] .replace)

end Planner.Preferences

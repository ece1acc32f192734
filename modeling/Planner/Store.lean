import Planner.Json.Fault

/-! A host that keeps texts under keys and may refuse to write. -/
namespace Planner

/-- How many more writes a host takes, and why it refuses those after them. -/
structure Quota where
  writes : Nat
  reason : String

inductive StoreError
  | refused (reason : String)
  | notJson (table : String) (fault : Json.Fault)
  | rowNotRecord (table : String) (index : Nat) (kind : String)

def StoreError.message : StoreError → String
  | .refused reason => s!"Failed to create storage directory: {reason}"
  | .notJson table fault =>
    s!"Stored table '{table}' is not a JSON array of records: {fault.message}"
  | .rowNotRecord table index kind =>
    s!"Stored table '{table}' is not a JSON array of records: row {index} is {kind} rather than an object"

structure Store where
  texts : List (String × String)
  quota : Option Quota

namespace Store

def empty : Store := ⟨[], none⟩

def text? (key : String) (store : Store) : Option String := store.texts.lookup key

/-- Puts a text in the place of the one under the same key, or at the end. -/
def putText (key text : String) : List (String × String) → List (String × String)
  | [] => [(key, text)]
  | (k, old) :: rest =>
    if k = key then (key, text) :: rest else (k, old) :: putText key text rest

/-- Writes a text under a key, unless the host refuses, and then nothing changes. -/
def put (key text : String) (store : Store) : Except StoreError Store :=
  match store.quota with
  | none => .ok { store with texts := putText key text store.texts }
  | some ⟨0, reason⟩ => .error (.refused reason)
  | some ⟨writes + 1, reason⟩ =>
    .ok ⟨putText key text store.texts, some ⟨writes, reason⟩⟩

end Store
end Planner

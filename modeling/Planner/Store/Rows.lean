import Planner.Json.Reader.Value
import Planner.Store

/-! Whole tables in a store: each is one JSON list of objects under the table's name. -/
namespace Planner

/-- What a value is called where a record was wanted. -/
def Json.kindName : Json → String
  | .null => "null"
  | .bool _ => "a boolean"
  | .number _ => "a number"
  | .text _ => "a string"
  | .list _ => "an array"
  | .object _ => "an object"

namespace Store

/-- The values from the given index on, each of which has to be an object. -/
def recordsFrom (table : String) (index : Nat) : List Json → Except StoreError (List Record)
  | [] => .ok []
  | .object fields :: rest => do return fields :: (← recordsFrom table (index + 1) rest)
  | other :: _ => .error (.rowNotRecord table index other.kindName)

/-- The rows that a stored text spells. -/
def rowsOfText (table text : String) : Except StoreError (List Record) :=
  match Json.readList text with
  | .ok values => recordsFrom table 0 values
  | .error fault => .error (.notJson table fault)

/-- The text of a list of rows. -/
def textOfRows (rows : List Record) : String := (Json.list (rows.map .object)).toText

/-- The rows of a table; one that was never written has none. -/
def rows (table : String) (store : Store) : Except StoreError (List Record) :=
  match store.text? table with
  | none => .ok []
  | some text => rowsOfText table text

/-- Replaces the rows of a table. -/
def setRows (table : String) (rows : List Record) (store : Store) : Except StoreError Store :=
  store.put table (textOfRows rows)

end Store
end Planner

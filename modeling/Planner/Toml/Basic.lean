/-!
TOML values, and the tables of a document, which grow line by line: a header opens a table, and a
key, perhaps with dots in it, adds a value to the open one.
-/
namespace Planner.Toml

inductive Fault
  /-- A text that is not TOML. -/
  | malformed
  /-- A key, or a header, for what is there already. -/
  | repeated (key : String)
  | tooDeep
  | wrongType (key wanted : String)
deriving DecidableEq

def Fault.message : Fault → String
  | .malformed => "the text is not TOML"
  | .repeated key => s!"the key '{key}' is defined already"
  | .tooDeep => "the values are nested too deeply"
  | .wrongType key wanted => s!"the value of '{key}' is not {wanted}"

/-- How a table came about, which decides what may still be added to it. -/
inductive Origin
  /-- By the header of a table inside it. -/
  | implied
  /-- By a key with dots. -/
  | dotted
  | header
  /-- By braces, between which it is complete. -/
  | braces
deriving DecidableEq

inductive Value
  | text (s : String)
  | integer (n : Int)
  | bool (b : Bool)
  /-- A number with a fraction or an exponent, or none at all, as it is written. -/
  | float (written : List Char)
  /-- A date, a time of day or both, as they are written. -/
  | moment (written : List Char)
  | list (items : List Value)
  | table (origin : Origin) (fields : List (String × Value))
  /-- The tables that headers of one name have opened, and the last of them. -/
  | tables (before : List (List (String × Value))) (last : List (String × Value))
deriving Inhabited

abbrev Fields := List (String × Value)

namespace Fields

/-- Puts a value in the place of the one under the same key, or at the end. -/
def put (key : String) (value : Value) : Fields → Fields
  | [] => [(key, value)]
  | (k, old) :: rest => if k = key then (key, value) :: rest else (k, old) :: put key value rest

/-- Changes the table to which the keys lead, and makes the tables on the way that are not there.
A path of `dotted` keys may not enter a table that has a header of its own. -/
def within (dotted : Bool) (change : Origin → Fields → Except Fault Fields) :
    (path : List String) → Origin → Fields → Except Fault Fields
  | [], origin, fields => change origin fields
  | key :: path, _, fields =>
    match fields.lookup key with
    | none => do
      let origin : Origin := if dotted then .dotted else .implied
      return fields.put key (.table origin (← within dotted change path origin []))
    | some (.table origin inner) =>
      if origin = .braces ∨ dotted ∧ origin = .header then .error (.repeated key)
      else do return fields.put key (.table origin (← within dotted change path origin inner))
    | some (.tables before last) => do
      return fields.put key (.tables before (← within dotted change path .header last))
    | some _ => .error (.repeated key)

/-- Adds a value under a new key. A path with dots only adds to tables that such paths made. -/
def insert (path : List String) (key : String) (value : Value) :
    Origin → Fields → Except Fault Fields :=
  within true (fun origin fields =>
    if (fields.lookup key).isSome ∨ !path.isEmpty ∧ origin ≠ .dotted then .error (.repeated key)
    else .ok (fields.put key value)) path

/-- Opens the table of a header, which at most the headers of inner tables have named so far. -/
def openTable (path : List String) (key : String) : Fields → Except Fault Fields :=
  within false (fun _ fields =>
    match fields.lookup key with
    | none => .ok (fields.put key (.table .header []))
    | some (.table .implied inner) => .ok (fields.put key (.table .header inner))
    | some _ => .error (.repeated key)) path .header

/-- Opens one more table of a header with two brackets. -/
def openNext (path : List String) (key : String) : Fields → Except Fault Fields :=
  within false (fun _ fields =>
    match fields.lookup key with
    | none => .ok (fields.put key (.tables [] []))
    | some (.tables before last) => .ok (fields.put key (.tables (before ++ [last]) []))
    | some _ => .error (.repeated key)) path .header

end Fields

end Planner.Toml

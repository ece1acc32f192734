import Planner.Predicate
import Planner.Table

/-! The statements of the planner, and what a selection makes of the rows of a table. -/
namespace Planner

inductive Direction
  | ascending
  | descending
deriving DecidableEq

structure Ordered where
  column : String
  direction : Direction

structure Select where
  table : Table
  filter : Option Predicate
  order : Option Ordered
  distinct : Option String

/-- What an insertion does when a row with the same natural key is stored already. -/
inductive OnConflict
  | append
  | replace
  | ignore
deriving DecidableEq

inductive Statement
  | insert (table : Table) (columns : List String) (values : List Json) (onConflict : OnConflict)
  | update (table : Table) (assignments : List (String × Json)) (id : Json)
  | delete (table : Table) (filter : Option Predicate)
  | select (s : Select)

namespace Ordered

/-- Whether the first row may stand before the second. -/
def le (order : Ordered) (a b : Record) : Bool :=
  let result := Json.sortCompare (a.get? order.column) (b.get? order.column)
  match order.direction with
  | .ascending => result.isLE
  | .descending => result.isGE

/-- The rows in order; rows that compare equal stay as they stood, in either direction. -/
def sort (order : Ordered) (rows : List Record) : List Record := rows.mergeSort order.le

end Ordered

namespace Select

/-- Every row of a table, as it is stored. -/
def everything (table : Table) : Select := ⟨table, none, none, none⟩

def matching (select : Select) (rows : List Record) : List Record :=
  match select.filter with
  | some predicate => rows.filter (predicate.holds ·)
  | none => rows

def sorted (select : Select) (rows : List Record) : List Record :=
  match select.order with
  | some order => order.sort rows
  | none => rows

/-- The values of a column, each at its first place only; a missing one counts as null. -/
def distinctValues (column : String) (seen : List Json) : List Record → List Json
  | [] => []
  | row :: rest =>
    let value := (row.get? column).getD .null
    if seen.any (·.same value) then distinctValues column seen rest
    else value :: distinctValues column (value :: seen) rest

/-- Filters, orders, and at last projects the rows. -/
def evaluate (select : Select) (rows : List Record) : List Record :=
  let rows := select.sorted (select.matching rows)
  match select.distinct with
  | some column => (distinctValues column [] rows).map fun value => [(column, value)]
  | none => rows

end Select

namespace Statement

/-- An insertion of the given columns and their values. -/
def insertFields (table : Table) (fields : List (String × Json)) (onConflict : OnConflict) :
    Statement :=
  .insert table (fields.map Prod.fst) (fields.map Prod.snd) onConflict

def table : Statement → Table
  | .insert table .. => table
  | .update table .. => table
  | .delete table .. => table
  | .select s => s.table

def kind : Statement → String
  | .insert .. => "INSERT"
  | .update .. => "UPDATE"
  | .delete .. => "DELETE"
  | .select .. => "SELECT"

end Statement
end Planner

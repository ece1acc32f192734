import Planner.Json.Order
import Planner.Text.Fold
import Planner.Text.LowerCase

/-! Conditions on a row. -/
namespace Planner

inductive Predicate
  | equal (column : String) (value : Json)
  | like (column : String) (pattern : String)
  | range (column : String) (low high : Json)
  | all (parts : List Predicate)
  | any (parts : List Predicate)

namespace Predicate

/-- The text that a pattern is looked for in; empty, zero, false and missing fields have none. -/
def likeText : Option Json → Option (List Char)
  | some (.text s) => if s.isEmpty then none else some s.toList
  | some (.number n) => if n.toDouble.isZero then none else some n.toText
  | some (.bool b) => if b then some (Json.boolText true) else none
  | some (.list items) => some (Json.list items).render
  | some (.object fields) => some (Json.object fields).render
  | none | some .null => none

/-- What is looked for: the pattern without its percent signs, wherever they stand. -/
def needle (pattern : String) : List Char := pattern.toList.filter (· ≠ '%')

/-- Whether the pattern occurs in the field, in letters of any case. -/
def likeHolds (pattern : String) (field : Option Json) : Bool :=
  match likeText field with
  | some text => Text.occursIn (Text.lower (needle pattern)) (Text.lower text)
  | none => false

def equalHolds (value : Json) (field : Option Json) : Bool :=
  match field with
  | some v => v.same value
  | none => false

/-- Whether the field is comparable with the bound and not below it. -/
def atLeast (low : Json) (field : Option Json) : Bool :=
  match field with
  | some v => match v.compare? low with
    | some .gt | some .eq => true
    | _ => false
  | none => false

/-- Whether the field is comparable with the bound and not above it. -/
def atMost (high : Json) (field : Option Json) : Bool :=
  match field with
  | some v => match v.compare? high with
    | some .lt | some .eq => true
    | _ => false
  | none => false

mutual

def holds (row : Record) : Predicate → Bool
  | .equal column value => equalHolds value (row.get? column)
  | .like column pattern => likeHolds pattern (row.get? column)
  | .range column low high => atLeast low (row.get? column) && atMost high (row.get? column)
  | .all parts => allHold row parts
  | .any parts => anyHolds row parts

def allHold (row : Record) : List Predicate → Bool
  | [] => true
  | part :: rest => holds row part && allHold row rest

def anyHolds (row : Record) : List Predicate → Bool
  | [] => false
  | part :: rest => holds row part || anyHolds row rest

end

end Predicate
end Planner

import Mathlib.Tactic
import Planner.Statement

/-! The statements that a text can spell, and their values in the order of the text. -/
namespace Planner

/-- A name that can stand between double quotes. -/
def Unquoted (name : String) : Prop := '"' ∉ name.toList

namespace Predicate

/-- A comparison, or a range. -/
def Atom : Predicate → Prop
  | .equal column _ | .like column _ | .range column _ _ => Unquoted column
  | .all _ | .any _ => False

/-- An atom, or a conjunction of two atoms or more. -/
def Group : Predicate → Prop
  | .all parts => 2 ≤ parts.length ∧ ∀ part ∈ parts, Atom part
  | other => Atom other

/-- A group, or an alternative of two groups or more. -/
def Condition : Predicate → Prop
  | .any groups => 2 ≤ groups.length ∧ ∀ group ∈ groups, Group group
  | other => Group other

mutual

/-- The values from left to right; a pattern is the text that it is. -/
def values : Predicate → List Json
  | .equal _ value => [value]
  | .like _ pattern => [.text pattern]
  | .range _ low high => [low, high]
  | .all parts => valuesOf parts
  | .any parts => valuesOf parts

def valuesOf : List Predicate → List Json
  | [] => []
  | part :: rest => values part ++ valuesOf rest

end

theorem valuesOf_eq_flatMap (parts : List Predicate) : valuesOf parts = parts.flatMap values := by
  induction parts with
  | nil => rfl
  | cons part rest ih => simp [valuesOf, ih]

end Predicate

namespace Select

def Normal (s : Select) : Prop :=
  (∀ filter ∈ s.filter, filter.Condition) ∧ (∀ order ∈ s.order, Unquoted order.column) ∧
    ∀ column ∈ s.distinct, Unquoted column

def values (s : Select) : List Json := (s.filter.map Predicate.values).getD []

end Select

namespace Statement

/-- A statement as its grammar has it: it names what it has to name, and no name has a double
quote in it. -/
def Normal : Statement → Prop
  | .insert _ columns values _ =>
    columns ≠ [] ∧ columns.length = values.length ∧ ∀ column ∈ columns, Unquoted column
  | .update _ assignments _ => assignments ≠ [] ∧ ∀ field ∈ assignments, Unquoted field.1
  | .delete _ filter => ∀ predicate ∈ filter, predicate.Condition
  | .select s => s.Normal

/-- The values from left to right. -/
def values : Statement → List Json
  | .insert _ _ values _ => values
  | .update _ assignments id => assignments.map Prod.snd ++ [id]
  | .delete _ filter => (filter.map Predicate.values).getD []
  | .select s => s.values

end Statement
end Planner

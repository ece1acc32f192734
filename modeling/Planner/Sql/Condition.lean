import Planner.Predicate
import Planner.Sql.Cursor

/-!
The condition of a statement: groups separated by OR, each of comparisons separated by AND. A
lower bound and the upper bound right behind it make a range.
-/
namespace Planner.Sql

/-- One comparison as it is written. -/
inductive Comparison
  | equal (column : String) (value : Json)
  | like (column : String) (pattern : Json)
  | atLeast (column : String) (low : Json)
  | atMost (column : String) (high : Json)

namespace Cursor

def comparison : Step Comparison := fun cursor => do
  let (column, cursor) ← cursor.identifier
  match cursor.token? .equals with
  | some cursor =>
    let (v, cursor) ← cursor.value
    return (.equal column v, cursor)
  | none => match cursor.token? .atLeast with
    | some cursor =>
      let (v, cursor) ← cursor.value
      return (.atLeast column v, cursor)
    | none => match cursor.token? .atMost with
      | some cursor =>
        let (v, cursor) ← cursor.value
        return (.atMost column v, cursor)
      | none => match cursor.keyword? "like" with
        | some cursor =>
          let (v, cursor) ← cursor.value
          return (.like column v, cursor)
        | none => cursor.expected "'=', '>=', '<=' or LIKE"

end Cursor

/-- The predicates of a group of comparisons. -/
def fuse : List Comparison → Except ParseError (List Predicate)
  | [] => .ok []
  | .equal column value :: rest => do return .equal column value :: (← fuse rest)
  | .like column (.text pattern) :: rest => do return .like column pattern :: (← fuse rest)
  | .like _ pattern :: _ => .error (.patternNotText pattern.toText)
  | .atLeast column low :: .atMost upper high :: rest =>
    if upper = column then do return .range column low high :: (← fuse rest)
    else .error (.unpairedRange column)
  | .atLeast column _ :: _ => .error (.unpairedRange column)
  | .atMost column _ :: _ => .error (.unpairedRange column)

/-- A single part stands for itself. -/
def allOf : List Predicate → Predicate
  | [part] => part
  | parts => .all parts

def anyOf : List Predicate → Predicate
  | [part] => part
  | parts => .any parts

namespace Cursor

def conjunction : Step Predicate := fun cursor => do
  let (comparisons, cursor) ← cursor.separated comparison (keyword? "and")
  return (allOf (← fuse comparisons), cursor)

def condition : Step Predicate := fun cursor => do
  let (groups, cursor) ← cursor.separated conjunction (keyword? "or")
  return (anyOf groups, cursor)

/-- The condition after WHERE, if there is one. -/
def whereClause : Step (Option Predicate) := fun cursor =>
  match cursor.keyword? "where" with
  | some cursor => do
    let (predicate, cursor) ← cursor.condition
    return (some predicate, cursor)
  | none => .ok (none, cursor)

end Cursor
end Planner.Sql

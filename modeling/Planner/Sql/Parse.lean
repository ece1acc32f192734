import Planner.Sql.Condition
import Planner.Sql.Scan
import Planner.Statement

/-!
The text of a statement:

    INSERT [OR REPLACE | OR IGNORE] INTO t (c, ...) VALUES (v, ...)
    UPDATE t SET c = v, ... WHERE id = v
    DELETE FROM t [WHERE condition]
    SELECT * | DISTINCT c FROM t [WHERE condition] [ORDER BY c [ASC | DESC]]

A value is a literal or a question mark, which takes the next parameter.
-/
namespace Planner.Sql
namespace Cursor

def onConflict : Step OnConflict := fun cursor =>
  match cursor.keyword? "or" with
  | none => .ok (.append, cursor)
  | some cursor => match cursor.keyword? "replace" with
    | some cursor => .ok (.replace, cursor)
    | none => match cursor.keyword? "ignore" with
      | some cursor => .ok (.ignore, cursor)
      | none => cursor.expected "REPLACE or IGNORE"

/-- Items in parentheses with commas between them. -/
def parenthesized {α : Type} (item : Step α) : Step (List α) := fun cursor => do
  let cursor ← cursor.token .leftParen
  let (items, cursor) ← cursor.commaSeparated item
  return (items, ← cursor.token .rightParen)

def insert : Step Statement := fun cursor => do
  let (onConflict, cursor) ← cursor.onConflict
  let cursor ← cursor.keyword "into"
  let (table, cursor) ← cursor.table
  let (columns, cursor) ← cursor.parenthesized identifier
  let cursor ← cursor.keyword "values"
  let (values, cursor) ← cursor.parenthesized value
  if columns.length = values.length then return (.insert table columns values onConflict, cursor)
  else .error (.columnCount columns.length values.length)

def assignment : Step (String × Json) := fun cursor => do
  let (column, cursor) ← cursor.identifier
  let cursor ← cursor.token .equals
  let (v, cursor) ← cursor.value
  return ((column, v), cursor)

def update : Step Statement := fun cursor => do
  let (table, cursor) ← cursor.table
  let cursor ← cursor.keyword "set"
  let (assignments, cursor) ← cursor.commaSeparated assignment
  let cursor ← cursor.keyword "where"
  let (column, cursor) ← cursor.identifier
  if column = "id" then
    let cursor ← cursor.token .equals
    let (id, cursor) ← cursor.value
    return (.update table assignments id, cursor)
  else .error (.updateNotById column)

def delete : Step Statement := fun cursor => do
  let cursor ← cursor.keyword "from"
  let (table, cursor) ← cursor.table
  let (filter, cursor) ← cursor.whereClause
  return (.delete table filter, cursor)

/-- The column of DISTINCT, after which a star may stand, or the star of a plain selection. -/
def projection : Step (Option String) := fun cursor =>
  match cursor.keyword? "distinct" with
  | some cursor => do
    let (column, cursor) ← cursor.identifier
    return (some column, (cursor.token? .star).getD cursor)
  | none => do return (none, ← cursor.token .star)

def direction : Step Direction := fun cursor =>
  match cursor.keyword? "desc" with
  | some cursor => .ok (.descending, cursor)
  | none => .ok (.ascending, (cursor.keyword? "asc").getD cursor)

def orderClause : Step (Option Ordered) := fun cursor =>
  match cursor.keyword? "order" with
  | some cursor => do
    let cursor ← cursor.keyword "by"
    let (column, cursor) ← cursor.identifier
    let (direction, cursor) ← cursor.direction
    return (some ⟨column, direction⟩, cursor)
  | none => .ok (none, cursor)

def select : Step Select := fun cursor => do
  let (distinct, cursor) ← cursor.projection
  let cursor ← cursor.keyword "from"
  let (table, cursor) ← cursor.table
  let (filter, cursor) ← cursor.whereClause
  let (order, cursor) ← cursor.orderClause
  return (⟨table, filter, order, distinct⟩, cursor)

def statement : Step Statement := fun cursor =>
  match cursor.keyword? "insert" with
  | some cursor => cursor.insert
  | none => match cursor.keyword? "update" with
    | some cursor => cursor.update
    | none => match cursor.keyword? "delete" with
      | some cursor => cursor.delete
      | none => match cursor.keyword? "select" with
        | some cursor => do
          let (s, cursor) ← cursor.select
          return (.select s, cursor)
        | none => cursor.expected "INSERT, UPDATE, DELETE or SELECT"

end Cursor

/-- Nothing but a semicolon may follow, and every parameter has to have its placeholder. -/
def complete (parameters : Nat) (cursor : Cursor) : Except ParseError Unit :=
  let rest := (cursor.token? .semicolon).getD cursor
  if rest.tokens.isEmpty then
    if rest.placeholders = parameters then .ok ()
    else .error (.parameterCount rest.placeholders parameters)
  else rest.expected "end of statement"

/-- The statement of a text, its placeholders taking the parameters from left to right. -/
def parse (sql : String) (parameters : List Json) : Except ParseError Statement := do
  let (statement, cursor) ← Cursor.statement ⟨← scan sql, parameters, 0⟩
  complete parameters.length cursor
  return statement

end Planner.Sql

import Planner.Entity.Choice

/-! Tasks and their subtasks. -/
namespace Planner

open Json (Fault)

structure Subtask where
  id : String
  taskId : String
  title : String
  completed : Bool
  createdAt : String
deriving DecidableEq

namespace Subtask

def layout : Layout := ⟨"Subtask", [
  .mandatory "id" Json.asText,
  .mandatory "task_id" Json.asText,
  .mandatory "title" Json.asText,
  .mandatory "completed" Json.asSwitch,
  .mandatory "created_at" Json.asText]⟩

def ofRow (row : Record) : Except Fault Subtask := do
  return {
    id := ← row.required "id" Json.asText
    taskId := ← row.required "task_id" Json.asText
    title := ← row.required "title" Json.asText
    completed := ← row.required "completed" Json.asSwitch
    createdAt := ← row.required "created_at" Json.asText }

def ofJson (value : Json) : Except Fault Subtask := do ofRow (← layout.row value)

/-- The columns as they are stored. -/
def columns (s : Subtask) : List (String × Json) := [
  ("id", .text s.id),
  ("task_id", .text s.taskId),
  ("title", .text s.title),
  ("completed", .number (.integer (.ofBool s.completed))),
  ("created_at", .text s.createdAt)]

def toJson (s : Subtask) : Json := .object <| Record.ofFields [
  ("id", .text s.id),
  ("task_id", .text s.taskId),
  ("title", .text s.title),
  ("completed", .bool s.completed),
  ("created_at", .text s.createdAt)]

end Subtask

structure Task where
  id : String
  title : String
  description : Option String
  priority : Priority
  status : TaskStatus
  dueDate : Option String
  createdAt : String
  updatedAt : String
  subtasks : List Subtask
deriving DecidableEq

namespace Task

def layout : Layout := ⟨"Task", [
  .mandatory "id" Json.asText,
  .mandatory "title" Json.asText,
  .optional "description" Json.asOptionalText,
  .mandatory "priority" (Choice.read (α := Priority)),
  .mandatory "status" (Choice.read (α := TaskStatus)),
  .optional "due_date" Json.asOptionalText,
  .mandatory "created_at" Json.asText,
  .mandatory "updated_at" Json.asText,
  .optional "subtasks" (Json.asListOf Subtask.ofJson)]⟩

def ofRow (row : Record) : Except Fault Task := do
  return {
    id := ← row.required "id" Json.asText
    title := ← row.required "title" Json.asText
    description := ← row.optional "description" none Json.asOptionalText
    priority := ← row.required "priority" Choice.read
    status := ← row.required "status" Choice.read
    dueDate := ← row.optional "due_date" none Json.asOptionalText
    createdAt := ← row.required "created_at" Json.asText
    updatedAt := ← row.required "updated_at" Json.asText
    subtasks := ← row.optional "subtasks" [] (Json.asListOf Subtask.ofJson) }

def ofJson (value : Json) : Except Fault Task := do ofRow (← layout.row value)

/-- The columns as they are stored; subtasks have a table of their own. -/
def columns (t : Task) : List (String × Json) := [
  ("id", .text t.id),
  ("title", .text t.title),
  ("description", .ofOptionalText t.description),
  ("priority", .text (Choice.name t.priority)),
  ("status", .text (Choice.name t.status)),
  ("due_date", .ofOptionalText t.dueDate),
  ("created_at", .text t.createdAt),
  ("updated_at", .text t.updatedAt)]

def toJson (t : Task) : Json :=
  .object <| Record.ofFields (t.columns ++ [("subtasks", .list (t.subtasks.map Subtask.toJson))])

end Task
end Planner

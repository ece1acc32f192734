import Planner.Date.Window
import Planner.Entity.Task
import Planner.Store.Entities

/-! The list of tasks and their subtasks. -/
namespace Planner

structure NewTask where
  title : String
  description : Option String := none
  priority : Priority := .medium
  status : TaskStatus := .incomplete
  dueDate : Option String := none

/-- What changes about a task; a text that may be missing can be set to none. -/
structure TaskPatch where
  title : Option String := none
  description : Option (Option String) := none
  priority : Option Priority := none
  status : Option TaskStatus := none
  dueDate : Option (Option String) := none

def TaskPatch.assignments (patch : TaskPatch) : List (String × Json) := List.filterMap id [
  assign "title" .text patch.title,
  assign "description" .ofOptionalText patch.description,
  assign "priority" (.text <| Choice.name ·) patch.priority,
  assign "status" (.text <| Choice.name ·) patch.status,
  assign "due_date" .ofOptionalText patch.dueDate]

namespace Tasks

open Workspace

def everyTask : Select := .everything .tasks

/-- The subtasks of a task in the order in which they were added. -/
def subtasks (taskId : String) (store : Store) : Except DatabaseError (List Subtask) :=
  store.entities Subtask.ofJson ((Select.everything .subtasks).filtered (.hasText "task_id" taskId))

/-- A row as a task with its subtasks. -/
def hydrate (store : Store) (row : Record) : Except DatabaseError Task := do
  let task ← decodeRow .tasks Task.ofJson row
  return { task with subtasks := ← subtasks task.id store }

def select (s : Select) (store : Store) : Except DatabaseError (List Task) := do
  (← store.query s).mapM (hydrate store)

/-- All tasks, the newest first. -/
def all (store : Store) : Except DatabaseError (List Task) :=
  select (everyTask.descending "created_at") store

def get? (id : String) (store : Store) : Except DatabaseError (Option Task) := do
  match ← store.queryOne (.byId .tasks id) with
  | some row => return some (← hydrate store row)
  | none => return none

/-- The tasks due in the window around a day, the soonest first. -/
def dueIn (window : Window) (today : Date) (store : Store) : Except DatabaseError (List Task) :=
  match window.bounds? today with
  | some (low, high) =>
    select ((everyTask.filtered (.range "due_date" (.text low) (.text high))).ascending "due_date")
      store
  | none => .error .outsideCalendar

def ofPriority (priority : Priority) (store : Store) : Except DatabaseError (List Task) :=
  select ((everyTask.filtered (.hasText "priority" (Choice.name priority))).descending "created_at")
    store

def ofStatus (status : TaskStatus) (store : Store) : Except DatabaseError (List Task) :=
  select ((everyTask.filtered (.hasText "status" (Choice.name status))).descending "created_at")
    store

/-- The tasks with a text in their title or description. -/
def search (text : String) (store : Store) : Except DatabaseError (List Task) :=
  let found := Predicate.any [.contains "title" text, .contains "description" text]
  select ((everyTask.filtered found).descending "created_at") store

def create (new : NewTask) : Action DatabaseError Task := do
  let now ← timestamp
  let task : Task := {
    id := ← newId
    title := new.title
    description := new.description
    priority := new.priority
    status := new.status
    dueDate := new.dueDate
    createdAt := now
    updatedAt := now
    subtasks := [] }
  append .tasks task.columns
  return task

/-- Changes a task and marks it as changed now; there may be no such task. -/
def update (id : String) (patch : TaskPatch) : Action DatabaseError (Option Task) := do
  let now ← timestamp
  let _ ← assignById .tasks id (patch.assignments ++ [("updated_at", .text now)])
  view (get? id)

/-- Removes a task and its subtasks; says whether there was the task. -/
def delete (id : String) : Action DatabaseError Bool := do
  let removed ← removeWhere .tasks "id" id
  let _ ← removeWhere .subtasks "task_id" id
  return removed != 0

def addSubtask (taskId title : String) : Action DatabaseError Subtask := do
  let subtask : Subtask := {
    id := ← newId
    taskId
    title
    completed := false
    createdAt := ← timestamp }
  append .subtasks subtask.columns
  return subtask

/-- Ticks a subtask off, or not any more; says whether there is the subtask. -/
def setSubtaskCompleted (id : String) (completed : Bool) : Action DatabaseError Bool := do
  let value := Json.number (.integer (.ofBool completed))
  return (← assignById .subtasks id [("completed", value)]) != 0

def deleteSubtask (id : String) : Action DatabaseError Bool := do
  return (← removeWhere .subtasks "id" id) != 0

end Tasks
end Planner

import Planner.Text.Fold

/-! The tables of the planner. -/
namespace Planner

inductive Table
  | tasks
  | subtasks
  | notes
  | events
  | habits
  | habitLogs
  | routines
  | settings
deriving DecidableEq

namespace Table

/-- Every table, in the order in which they are created and exported. -/
def all : List Table :=
  [.tasks, .subtasks, .notes, .events, .habits, .habitLogs, .routines, .settings]

/-- The name in statements, which is also the key of the stored text. -/
def name : Table → String
  | .tasks => "tasks"
  | .subtasks => "subtasks"
  | .notes => "notes"
  | .events => "events"
  | .habits => "habits"
  | .habitLogs => "habit_logs"
  | .routines => "routines"
  | .settings => "settings"

/-- The table of a name, in letters of any case. -/
def ofName? (text : String) : Option Table :=
  all.find? fun table => Text.sameIgnoringCase table.name text

/-- What is said of a text that names no table. -/
def refusal (text : String) : String := s!"unknown table '{text}'"

/-- The columns by which an inserted row meets a stored one. -/
def naturalKey : Table → List String
  | .settings => ["key"]
  | .habitLogs => ["habit_id", "date"]
  | _ => ["id"]

end Table
end Planner

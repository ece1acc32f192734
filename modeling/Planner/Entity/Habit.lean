import Planner.Entity.Choice

/-! Habits and the log of the days on which they were kept. -/
namespace Planner

open Json (Fault)

structure Habit where
  id : String
  name : String
  frequency : Frequency
  color : String
  createdAt : String
deriving DecidableEq

namespace Habit

def layout : Layout := ⟨"Habit", [
  .mandatory "id" Json.asText,
  .mandatory "name" Json.asText,
  .mandatory "frequency" (Choice.read (α := Frequency)),
  .mandatory "color" Json.asText,
  .mandatory "created_at" Json.asText]⟩

def ofRow (row : Record) : Except Fault Habit := do
  return {
    id := ← row.required "id" Json.asText
    name := ← row.required "name" Json.asText
    frequency := ← row.required "frequency" Choice.read
    color := ← row.required "color" Json.asText
    createdAt := ← row.required "created_at" Json.asText }

def ofJson (value : Json) : Except Fault Habit := do ofRow (← layout.row value)

/-- The columns as they are stored. -/
def columns (h : Habit) : List (String × Json) := [
  ("id", .text h.id),
  ("name", .text h.name),
  ("frequency", .text (Choice.name h.frequency)),
  ("color", .text h.color),
  ("created_at", .text h.createdAt)]

def toJson (h : Habit) : Json := .object (Record.ofFields h.columns)

end Habit

structure HabitLog where
  id : String
  habitId : String
  date : String
  completed : Bool
deriving DecidableEq

namespace HabitLog

def layout : Layout := ⟨"HabitLog", [
  .mandatory "id" Json.asText,
  .mandatory "habit_id" Json.asText,
  .mandatory "date" Json.asText,
  .mandatory "completed" Json.asSwitch]⟩

def ofRow (row : Record) : Except Fault HabitLog := do
  return {
    id := ← row.required "id" Json.asText
    habitId := ← row.required "habit_id" Json.asText
    date := ← row.required "date" Json.asText
    completed := ← row.required "completed" Json.asSwitch }

def ofJson (value : Json) : Except Fault HabitLog := do ofRow (← layout.row value)

/-- The columns as they are stored. -/
def columns (l : HabitLog) : List (String × Json) := [
  ("id", .text l.id),
  ("habit_id", .text l.habitId),
  ("date", .text l.date),
  ("completed", .number (.integer (.ofBool l.completed)))]

def toJson (l : HabitLog) : Json := .object <| Record.ofFields [
  ("id", .text l.id),
  ("habit_id", .text l.habitId),
  ("date", .text l.date),
  ("completed", .bool l.completed)]

end HabitLog
end Planner

import Planner.Entity.Habit
import Planner.Events

/-! The habits, the log of their days, and what the log says about them. -/
namespace Planner

structure NewHabit where
  name : String
  frequency : Frequency := .daily
  color : String := defaultColor

structure HabitPatch where
  name : Option String := none
  frequency : Option Frequency := none
  color : Option String := none

def HabitPatch.assignments (patch : HabitPatch) : List (String × Json) := List.filterMap id [
  assign "name" .text patch.name,
  assign "frequency" (.text <| Choice.name ·) patch.frequency,
  assign "color" .text patch.color]

/-- A percentage that is rounded to whole points, a half away from zero, as doubles give it. -/
def percentage (part whole : Nat) : Nat :=
  let ratio := (Double.ofInt part).div? (Double.ofInt whole)
  match ratio.bind (·.mul? (Double.ofInt 100)) with
  | some percent => percent.roundToNat
  | none => 0

namespace Habits

open Workspace

/-- All habits, the newest first. -/
def all (store : Store) : Except DatabaseError (List Habit) :=
  store.entities Habit.ofJson ((Select.everything .habits).descending "created_at")

def get? (id : String) (store : Store) : Except DatabaseError (Option Habit) :=
  store.entity? Habit.ofJson (.byId .habits id)

def logOn (habitId date : String) : Select :=
  (Select.everything .habitLogs).filtered
    (.all [.hasText "habit_id" habitId, .hasText "date" date])

/-- The entry of a habit for a day, if there is one. -/
def getLog? (habitId date : String) (store : Store) : Except DatabaseError (Option HabitLog) :=
  store.entity? HabitLog.ofJson (logOn habitId date)

/-- The entries of a habit from one day to another, the newest first. -/
def logs (habitId start stop : String) (store : Store) : Except DatabaseError (List HabitLog) :=
  store.entities HabitLog.ofJson <|
    ((Select.everything .habitLogs).filtered
      (.all [.hasText "habit_id" habitId, .range "date" (.text start) (.text stop)])).descending
      "date"

/-- Whether the first entry for a day among the rows of the log has the day as completed. -/
def completedOn (habitId : String) (day : Date) (rows : List Record) :
    Except DatabaseError Bool :=
  match ((logOn habitId day.toText).evaluate rows).head? with
  | some row => do return (← decodeRow .habitLogs HabitLog.ofJson row).completed
  | none => .ok false

/-- The completed days in a row that end with `day`, of which `days` at most are counted. -/
def streakFrom (habitId : String) (rows : List Record) : (days : Nat) → (day : Date) →
    Except DatabaseError Nat
  | 0, _ => .ok 0
  | days + 1, day => do
    if ← completedOn habitId day rows then
      match day.addDays? (-1) with
      | some before => return (← streakFrom habitId rows days before) + 1
      | none => return 1
    else return 0

/-- The completed days in a row up to `day`. The calendar has no more days than those since its
first. -/
def streak (habitId : String) (day : Date) (store : Store) : Except DatabaseError Nat := do
  let rows ← store.tableRows .habitLogs
  streakFrom habitId rows ((day.number - Date.first.number).toNat + 1) day

/-- The completed days among so many, in percent. A window that begins before the first day of
the calendar begins with it. -/
def successRate (habitId : String) (days : Nat) (today : Date) (store : Store) :
    Except DatabaseError Nat := do
  if days = 0 then return 0
  else
    let start := (today.addDays? (-(days : Int))).getD Date.first
    let entries ← logs habitId start.toText today.toText store
    return percentage (entries.filter (·.completed)).length days

def create (new : NewHabit) : Action DatabaseError Habit := do
  let habit : Habit := {
    id := ← newId
    name := new.name
    frequency := new.frequency
    color := new.color
    createdAt := ← timestamp }
  append .habits habit.columns
  return habit

/-- Changes a habit; there may be no such habit. -/
def update (id : String) (patch : HabitPatch) : Action DatabaseError (Option Habit) := do
  let _ ← assignById .habits id patch.assignments
  view (get? id)

/-- Removes a habit and its log; says whether there was the habit. -/
def delete (id : String) : Action DatabaseError Bool := do
  let removed ← removeWhere .habits "id" id
  let _ ← removeWhere .habitLogs "habit_id" id
  return removed != 0

/-- Notes whether a habit was kept on a day. An entry for that day is replaced and keeps its id. -/
def log (habitId date : String) (completed : Bool) : Action DatabaseError HabitLog := do
  let id ← match ← view (getLog? habitId date) with
    | some existing => pure existing.id
    | none => newId
  let entry : HabitLog := { id, habitId, date, completed }
  let _ ← run (.insertFields .habitLogs entry.columns .replace)
  return entry

end Habits
end Planner

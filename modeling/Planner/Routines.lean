import Planner.Entity.Routine
import Planner.Events

/-! The weekly routines. -/
namespace Planner

structure NewRoutine where
  title : String
  startTime : String
  endTime : String
  days : List String
  color : String := defaultColor
  category : String := "personal"

structure RoutinePatch where
  title : Option String := none
  startTime : Option String := none
  endTime : Option String := none
  days : Option (List String) := none
  color : Option String := none
  category : Option String := none

def RoutinePatch.assignments (patch : RoutinePatch) : List (String × Json) := List.filterMap id [
  assign "title" .text patch.title,
  assign "start_time" .text patch.startTime,
  assign "end_time" .text patch.endTime,
  assign "days" TextList.column patch.days,
  assign "color" .text patch.color,
  assign "category" .text patch.category]

namespace Routines

open Workspace

/-- All routines by their start. -/
def all (store : Store) : Except DatabaseError (List Routine) :=
  store.entities Routine.ofJson ((Select.everything .routines).ascending "start_time")

def get? (id : String) (store : Store) : Except DatabaseError (Option Routine) :=
  store.entity? Routine.ofJson (.byId .routines id)

/-- The routines of a day of the week, in letters of any case. -/
def onDay (day : String) (store : Store) : Except DatabaseError (List Routine) := do
  return (← all store).filter (·.days.any (Text.sameIgnoringCase · day))

def create (new : NewRoutine) : Action DatabaseError Routine := do
  let routine : Routine := {
    id := ← newId
    title := new.title
    startTime := new.startTime
    endTime := new.endTime
    days := new.days
    color := new.color
    category := new.category
    createdAt := ← timestamp }
  append .routines routine.columns
  return routine

/-- Changes a routine; there may be no such routine. -/
def update (id : String) (patch : RoutinePatch) : Action DatabaseError (Option Routine) := do
  let _ ← assignById .routines id patch.assignments
  view (get? id)

def delete (id : String) : Action DatabaseError Bool := do
  return (← removeWhere .routines "id" id) != 0

end Routines
end Planner

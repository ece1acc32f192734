import Planner.Entity.Event
import Planner.Store.Entities

/-! The events of the calendar. -/
namespace Planner

/-- The color that events, habits and routines have unless they are given another. -/
def defaultColor : String := "#0ea5e9"

structure NewEvent where
  title : String
  startTime : String
  description : Option String := none
  endTime : Option String := none
  location : Option String := none
  color : String := defaultColor
  type : EventType := .personal

structure EventPatch where
  title : Option String := none
  description : Option (Option String) := none
  startTime : Option String := none
  endTime : Option (Option String) := none
  location : Option (Option String) := none
  color : Option String := none
  type : Option EventType := none

def EventPatch.assignments (patch : EventPatch) : List (String × Json) := List.filterMap id [
  assign "title" .text patch.title,
  assign "description" .ofOptionalText patch.description,
  assign "start_time" .text patch.startTime,
  assign "end_time" .ofOptionalText patch.endTime,
  assign "location" .ofOptionalText patch.location,
  assign "color" .text patch.color,
  assign "type" (.text <| Choice.name ·) patch.type]

namespace Events

open Workspace

def everyEvent : Select := .everything .events

/-- The selected events by their start. -/
def select (s : Select) (store : Store) : Except DatabaseError (List Event) :=
  store.entities Event.ofJson (s.ascending "start_time")

def all (store : Store) : Except DatabaseError (List Event) := select everyEvent store

def get? (id : String) (store : Store) : Except DatabaseError (Option Event) :=
  store.entity? Event.ofJson (.byId .events id)

/-- The events that start between two moments, compared as texts. -/
def startingIn (start stop : String) (store : Store) : Except DatabaseError (List Event) :=
  select (everyEvent.filtered (.range "start_time" (.text start) (.text stop))) store

def ofType (type : EventType) (store : Store) : Except DatabaseError (List Event) :=
  select (everyEvent.filtered (.hasText "type" (Choice.name type))) store

def create (new : NewEvent) : Action DatabaseError Event := do
  let now ← timestamp
  let event : Event := {
    id := ← newId
    title := new.title
    description := new.description
    startTime := new.startTime
    endTime := new.endTime
    location := new.location
    color := new.color
    type := new.type
    createdAt := now
    updatedAt := now }
  append .events event.columns
  return event

/-- Changes an event and marks it as changed now; there may be no such event. -/
def update (id : String) (patch : EventPatch) : Action DatabaseError (Option Event) := do
  let now ← timestamp
  let _ ← assignById .events id (patch.assignments ++ [("updated_at", .text now)])
  view (get? id)

def delete (id : String) : Action DatabaseError Bool := do
  return (← removeWhere .events "id" id) != 0

end Events
end Planner

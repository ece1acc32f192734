import Planner.Entity.Choice

/-! Events of the calendar. -/
namespace Planner

open Json (Fault)

structure Event where
  id : String
  title : String
  description : Option String
  startTime : String
  endTime : Option String
  location : Option String
  color : String
  type : EventType
  createdAt : String
  updatedAt : String
deriving DecidableEq

namespace Event

def layout : Layout := ⟨"Event", [
  .mandatory "id" Json.asText,
  .mandatory "title" Json.asText,
  .optional "description" Json.asOptionalText,
  .mandatory "start_time" Json.asText,
  .optional "end_time" Json.asOptionalText,
  .optional "location" Json.asOptionalText,
  .mandatory "color" Json.asText,
  .mandatory "type" (Choice.read (α := EventType)),
  .mandatory "created_at" Json.asText,
  .mandatory "updated_at" Json.asText]⟩

def ofRow (row : Record) : Except Fault Event := do
  return {
    id := ← row.required "id" Json.asText
    title := ← row.required "title" Json.asText
    description := ← row.optional "description" none Json.asOptionalText
    startTime := ← row.required "start_time" Json.asText
    endTime := ← row.optional "end_time" none Json.asOptionalText
    location := ← row.optional "location" none Json.asOptionalText
    color := ← row.required "color" Json.asText
    type := ← row.required "type" Choice.read
    createdAt := ← row.required "created_at" Json.asText
    updatedAt := ← row.required "updated_at" Json.asText }

def ofJson (value : Json) : Except Fault Event := do ofRow (← layout.row value)

/-- The columns as they are stored. -/
def columns (e : Event) : List (String × Json) := [
  ("id", .text e.id),
  ("title", .text e.title),
  ("description", .ofOptionalText e.description),
  ("start_time", .text e.startTime),
  ("end_time", .ofOptionalText e.endTime),
  ("location", .ofOptionalText e.location),
  ("color", .text e.color),
  ("type", .text (Choice.name e.type)),
  ("created_at", .text e.createdAt),
  ("updated_at", .text e.updatedAt)]

def toJson (e : Event) : Json := .object (Record.ofFields e.columns)

end Event
end Planner

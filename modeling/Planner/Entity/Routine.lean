import Planner.Entity.TextList

/-! Weekly routines, whose days are stored as the text of a JSON list. -/
namespace Planner

open Json (Fault)

structure Routine where
  id : String
  title : String
  startTime : String
  endTime : String
  days : List String
  color : String
  category : String
  createdAt : String
deriving DecidableEq

namespace Routine

def readDays (value : Json) : Except Fault (List String) := do TextList.ofColumn (← value.asText)

def layout : Layout := ⟨"Routine", [
  .mandatory "id" Json.asText,
  .mandatory "title" Json.asText,
  .mandatory "start_time" Json.asText,
  .mandatory "end_time" Json.asText,
  .mandatory "days" readDays,
  .mandatory "color" Json.asText,
  .mandatory "category" Json.asText,
  .mandatory "created_at" Json.asText]⟩

def ofRow (row : Record) : Except Fault Routine := do
  return {
    id := ← row.required "id" Json.asText
    title := ← row.required "title" Json.asText
    startTime := ← row.required "start_time" Json.asText
    endTime := ← row.required "end_time" Json.asText
    days := ← row.required "days" readDays
    color := ← row.required "color" Json.asText
    category := ← row.required "category" Json.asText
    createdAt := ← row.required "created_at" Json.asText }

def ofJson (value : Json) : Except Fault Routine := do ofRow (← layout.row value)

/-- The columns as they are stored. -/
def columns (r : Routine) : List (String × Json) := [
  ("id", .text r.id),
  ("title", .text r.title),
  ("start_time", .text r.startTime),
  ("end_time", .text r.endTime),
  ("days", TextList.column r.days),
  ("color", .text r.color),
  ("category", .text r.category),
  ("created_at", .text r.createdAt)]

def toJson (r : Routine) : Json := .object <| Record.ofFields [
  ("id", .text r.id),
  ("title", .text r.title),
  ("start_time", .text r.startTime),
  ("end_time", .text r.endTime),
  ("days", Json.ofTexts r.days),
  ("color", .text r.color),
  ("category", .text r.category),
  ("created_at", .text r.createdAt)]

end Routine
end Planner

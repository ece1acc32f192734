import Planner.Entity.TextList

/-! Notes, whose tags are stored as the text of a JSON list. -/
namespace Planner

open Json (Fault)

structure Note where
  id : String
  title : String
  content : String
  folder : String
  tags : List String
  createdAt : String
  updatedAt : String
deriving DecidableEq

namespace Note

def defaultFolder : String := "default"

/-- Null reads as the empty text. -/
def readContent (value : Json) : Except Fault String := do
  return (← value.asOptionalText).getD ""

/-- Null and the empty text stand for the default folder. -/
def readFolder (value : Json) : Except Fault String := do
  match ← value.asOptionalText with
  | none => return defaultFolder
  | some folder => return if folder.isEmpty then defaultFolder else folder

/-- Null and the empty text stand for no tags. -/
def readTags (value : Json) : Except Fault (List String) := do
  match ← value.asOptionalText with
  | none => return []
  | some text => if text.isEmpty then return [] else TextList.ofColumn text

def layout : Layout := ⟨"Note", [
  .mandatory "id" Json.asText,
  .mandatory "title" Json.asText,
  .optional "content" readContent,
  .optional "folder" readFolder,
  .optional "tags" readTags,
  .mandatory "created_at" Json.asText,
  .mandatory "updated_at" Json.asText]⟩

def ofRow (row : Record) : Except Fault Note := do
  return {
    id := ← row.required "id" Json.asText
    title := ← row.required "title" Json.asText
    content := ← row.optional "content" "" readContent
    folder := ← row.optional "folder" defaultFolder readFolder
    tags := ← row.optional "tags" [] readTags
    createdAt := ← row.required "created_at" Json.asText
    updatedAt := ← row.required "updated_at" Json.asText }

def ofJson (value : Json) : Except Fault Note := do ofRow (← layout.row value)

/-- The columns as they are stored. -/
def columns (n : Note) : List (String × Json) := [
  ("id", .text n.id),
  ("title", .text n.title),
  ("content", .text n.content),
  ("folder", .text n.folder),
  ("tags", TextList.column n.tags),
  ("created_at", .text n.createdAt),
  ("updated_at", .text n.updatedAt)]

def toJson (n : Note) : Json := .object <| Record.ofFields [
  ("id", .text n.id),
  ("title", .text n.title),
  ("content", .text n.content),
  ("folder", .text n.folder),
  ("tags", Json.ofTexts n.tags),
  ("created_at", .text n.createdAt),
  ("updated_at", .text n.updatedAt)]

end Note
end Planner

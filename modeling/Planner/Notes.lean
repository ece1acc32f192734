import Planner.Entity.Note
import Planner.Store.Entities

/-! The notes in their folders. -/
namespace Planner

structure NewNote where
  title : String
  content : String := ""
  folder : String := Note.defaultFolder
  tags : List String := []

structure NotePatch where
  title : Option String := none
  content : Option String := none
  folder : Option String := none
  tags : Option (List String) := none

def NotePatch.assignments (patch : NotePatch) : List (String × Json) := List.filterMap id [
  assign "title" .text patch.title,
  assign "content" .text patch.content,
  assign "folder" .text patch.folder,
  assign "tags" TextList.column patch.tags]

namespace Notes

open Workspace

def everyNote : Select := .everything .notes

/-- The selected notes, the one changed last first. -/
def select (s : Select) (store : Store) : Except DatabaseError (List Note) :=
  store.entities Note.ofJson (s.descending "updated_at")

def all (store : Store) : Except DatabaseError (List Note) := select everyNote store

def get? (id : String) (store : Store) : Except DatabaseError (Option Note) :=
  store.entity? Note.ofJson (.byId .notes id)

def inFolder (folder : String) (store : Store) : Except DatabaseError (List Note) :=
  select (everyNote.filtered (.hasText "folder" folder)) store

/-- The names of the folders, each at its first place. -/
def folders (store : Store) : Except DatabaseError (List String) := do
  let rows ← store.query { everyNote with distinct := some "folder" }
  return rows.filterMap fun row => match row.get? "folder" with
    | some (.text folder) => some folder
    | _ => none

/-- The notes with a text in their title, content or tags. -/
def search (text : String) (store : Store) : Except DatabaseError (List Note) :=
  select (everyNote.filtered <|
    .any [.contains "title" text, .contains "content" text, .contains "tags" text]) store

def create (new : NewNote) : Action DatabaseError Note := do
  let now ← timestamp
  let note : Note := {
    id := ← newId
    title := new.title
    content := new.content
    folder := new.folder
    tags := new.tags
    createdAt := now
    updatedAt := now }
  append .notes note.columns
  return note

/-- Changes a note and marks it as changed now; there may be no such note. -/
def update (id : String) (patch : NotePatch) : Action DatabaseError (Option Note) := do
  let now ← timestamp
  let _ ← assignById .notes id (patch.assignments ++ [("updated_at", .text now)])
  view (get? id)

def delete (id : String) : Action DatabaseError Bool := do
  return (← removeWhere .notes "id" id) != 0

end Notes
end Planner

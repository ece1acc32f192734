import Planner.Json.Reader.Value
import Planner.Transfer.Document

/-!
Export documents read from their text in one pass, so that of several faults the first in the
text is the one reported. Fields that a document does not have are passed over.
-/
namespace Planner

open Json

namespace Transfer

/-- What is left of a list whose items were all read. -/
def endItems (s : List Char) : Except Fault (List Char) :=
  match skipSpace s with
  | [] => .error .endInList
  | ']' :: rest => .ok rest
  | ',' :: rest => match skipSpace rest with
    | ']' :: _ => .error .trailingComma
    | _ => .error .trailingCharacters
  | _ => .error .trailingCharacters

/-- Reads the fields of a structure that is written as a list. A list that ends early leaves the
rest of the fields as they are; the result tells how many there were. -/
def readPositions {σ : Type} (index : Nat) (state : σ) :
    List (σ → Reader σ) → Reader (σ × Nat)
  | [], s => do return ((state, index), ← endItems s)
  | read :: reads, s => do
    match ← nextItem (index == 0) s with
    | .done rest => return ((state, index), rest)
    | .item s =>
      let (state, s) ← read state s
      readPositions (index + 1) state reads s

/-- A field that may come once. -/
def once {α σ : Type} (name : String) (old : Option α) (read : Reader α) (put : α → σ) :
    Reader σ := fun s =>
  if old.isSome then .error (.duplicateField name)
  else do
    let (a, s) ← read (← readColon s)
    return (put a, s)

/-- A field that nothing is made of. -/
def passOver {σ : Type} (state : σ) : Reader σ := fun s => do
  return (state, ← skipValue (← readColon s))

/-- How deep the fields of a row may be: around them stand the document, its data, a section and
the row. -/
def fieldDepth : Nat := depthLimit - 4

def readRow : Reader Record := fun s =>
  match skipSpace s with
  | '{' :: rest => readRecord (readValue fieldDepth) rest
  | s => readMismatch "a map" s

def readRows : Reader (Option (List Record)) := fun s =>
  match skipSpace s with
  | 'n' :: rest => do return (none, ← readWord ['u', 'l', 'l'] rest)
  | s => do
    let (rows, s) ← readListOf readRow s
    return (some rows, s)

def sectionField (given : List (Table × Option (List Record))) (key : String) :
    Reader (List (Table × Option (List Record))) :=
  match Table.ofSectionName? key with
  | some table => once key (given.lookup table) readRows fun rows => given ++ [(table, rows)]
  | none => passOver given

def readSections : Reader Sections := fun s =>
  match skipSpace s with
  | '{' :: rest => do
    let (given, s) ← readFields sectionField [] rest
    return (⟨given⟩, s)
  | '[' :: rest => do
    let position (table : Table) (given : List (Table × Option (List Record))) :
        Reader (List (Table × Option (List Record))) := fun s => do
      let (rows, s) ← readRows s
      return (given ++ [(table, rows)], s)
    let ((given, _), s) ← readPositions 0 [] (Table.all.map position) rest
    return (⟨given⟩, s)
  | s => readMismatch "struct ExportData" s

/-- A document of which some fields were read. -/
structure Draft where
  version : Option String
  exportDate : Option String
  data : Option Sections

namespace Draft

def empty : Draft := ⟨none, none, none⟩

def field (draft : Draft) (key : String) : Reader Draft :=
  if key = "version" then
    once key draft.version readText fun s => { draft with version := some s }
  else if key = "exportDate" then
    once key draft.exportDate readText fun s => { draft with exportDate := some s }
  else if key = "data" then
    once key draft.data readSections fun data => { draft with data := some data }
  else passOver draft

/-- The fields in the order of a document that is written as a list. -/
def positions : List (Draft → Reader Draft) := [
  fun draft s => do
    let (version, s) ← readText s
    return ({ draft with version := some version }, s),
  fun draft s => do
    let (exportDate, s) ← readText s
    return ({ draft with exportDate := some exportDate }, s),
  fun draft s => do
    let (data, s) ← readSections s
    return ({ draft with data := some data }, s)]

def finish (draft : Draft) (missing : Fault) : Except Fault Document :=
  match draft.data with
  | some data => .ok ⟨draft.version.getD "", draft.exportDate.getD "", data⟩
  | none => .error missing

end Draft

def readDocument : Reader Document := fun s =>
  match skipSpace s with
  | '{' :: rest => do
    let (draft, s) ← readFields Draft.field Draft.empty rest
    return (← draft.finish (.missingField "data"), s)
  | '[' :: rest => do
    let ((draft, _), s) ← readPositions 0 Draft.empty Draft.positions rest
    return (← draft.finish (.tooShort 2 "struct ExportDocument with 3 elements"), s)
  | s => readMismatch "struct ExportDocument" s

def documentOfText (text : String) : Except Fault Document := ofWhole readDocument text

end Transfer
end Planner

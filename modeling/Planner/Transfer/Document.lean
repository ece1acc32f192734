import Planner.Entity.Layout
import Planner.Table

/-! The document that a whole planner is exported to. -/
namespace Planner

open Json (Fault)

/-- The name of a table in a document. -/
def Table.sectionName : Table → String
  | .habitLogs => "habitLogs"
  | table => table.name

def Table.ofSectionName? (name : String) : Option Table := all.find? (·.sectionName = name)

/-- The sections of a document: the rows of tables, of which each may be missing or null. -/
structure Sections where
  given : List (Table × Option (List Record))

/-- A document; the version and the date are empty when they are not given. -/
structure Document where
  version : String
  exportDate : String
  data : Sections

namespace Sections

def rows? (table : Table) (data : Sections) : Option (List Record) :=
  (data.given.lookup table).join

/-- The sections that have rows, as an object with the tables in their order. -/
def toJson (data : Sections) : Json :=
  .object <| Table.all.filterMap fun table =>
    (data.rows? table).map fun rows => (table.sectionName, .list (rows.map .object))

def asRecord : Json → Except Fault Record
  | .object fields => .ok fields
  | other => .error (.wrongType other.found "a map")

/-- The rows of a section, or none for null. -/
def asRows : Json → Except Fault (Option (List Record))
  | .null => .ok none
  | value => do return some (← value.asListOf asRecord)

def layout : Layout :=
  ⟨"ExportData", Table.all.map fun table => .optional table.sectionName asRows⟩

def ofJson (value : Json) : Except Fault Sections := do
  let row ← layout.row value
  return ⟨← Table.all.mapM fun table => do
    return (table, ← row.optional table.sectionName none asRows)⟩

end Sections

namespace Document

/-- The fields in the order in which they are written. -/
def toJson (d : Document) : Json := .object [
  ("version", .text d.version),
  ("exportDate", .text d.exportDate),
  ("data", d.data.toJson)]

def layout : Layout := ⟨"ExportDocument", [
  .optional "version" Json.asText,
  .optional "exportDate" Json.asText,
  .mandatory "data" Sections.ofJson]⟩

def ofJson (value : Json) : Except Fault Document := do
  let row ← layout.row value
  return {
    version := ← row.optional "version" "" Json.asText
    exportDate := ← row.optional "exportDate" "" Json.asText
    data := ← row.required "data" Sections.ofJson }

end Document
end Planner

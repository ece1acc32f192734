import Planner.Workspace

/-! A workspace as one text, in which it is kept between two commands. -/
namespace Planner.Workspace

/-- A JSON object with the number of ids handed out and the stored texts. -/
def toText (w : Workspace) : String :=
  let issued := match Integer.ofInt? w.issued with
    | some n => Json.number (.integer n)
    | none => .null
  let texts := Record.ofFields (w.store.texts.map fun (key, text) => (key, Json.text text))
  (Json.object [("issued", issued), ("texts", .object texts)]).toText

def textsOf? (fields : Record) : Option (List (String × String)) :=
  fields.mapM fun (key, value) => match value with
    | .text s => some (key, s)
    | _ => none

/-- The workspace that a text keeps, at the given moment. -/
def ofText? (now : Instant) (text : String) : Option Workspace :=
  match Json.ofWhole (Json.readValue Json.depthLimit) text with
  | .ok (.object [("issued", .number (.integer n)), ("texts", .object fields)]) => do
    return ⟨⟨← textsOf? fields, none⟩, now, n.value.toNat⟩
  | _ => none

end Planner.Workspace

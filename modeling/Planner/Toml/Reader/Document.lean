import Planner.Toml.Reader.Value

/-! Whole documents: headers, and keys with their values, each on a line of its own. -/
namespace Planner.Toml

/-- The fields read so far, and the keys of the header that was read last. -/
structure Document where
  fields : Fields := []
  current : List String := []

/-- What follows a line on which nothing but a comment is left. -/
def endLine (s : List Char) : Except Fault (List Char) :=
  let rest := match s.dropWhile isBlank with
    | '#' :: s => s.dropWhile (!isControl ·)
    | s => s
  match rest, lineEnd? rest with
  | [], _ => .ok []
  | _, some s => .ok s
  | _, none => .error .malformed

/-- The keys of a header after its opening bracket, whose closing ends the line. -/
def readHeader (closing : List Char) : Reader (List String × String) := fun s => do
  let (path, s) ← readPath depthLimit s
  if closing.isPrefixOf s then return (path, ← endLine (s.drop closing.length))
  else .error .malformed

/-- A header, or a key and its value. -/
def readLine (d : Document) : Reader Document
  | '[' :: '[' :: s => do
    let ((path, key), s) ← readHeader [']', ']'] s
    return (⟨← d.fields.openNext path key, path ++ [key]⟩, s)
  | '[' :: s => do
    let ((path, key), s) ← readHeader [']'] s
    return (⟨← d.fields.openTable path key, path ++ [key]⟩, s)
  | s => do
    let ((path, key), s) ← readPath depthLimit s
    match s with
    | '=' :: s => do
      let (value, s) ← readValue depthLimit (s.dropWhile isBlank)
      let add := Fields.insert path key value
      let fields ← Fields.within false add d.current .header d.fields
      return ({ d with fields }, ← endLine s)
    | _ => .error .malformed

/-- The lines up to the end of the text; `steps` bounds their number. -/
def readLines : (steps : Nat) → Document → List Char → Except Fault Document
  | 0, _, _ => .error .malformed
  | steps + 1, d, s =>
    match skipGap false s with
    | [] => .ok d
    | s => do
      let (d, s) ← readLine d s
      readLines steps d s

/-- The fields of a document. A byte order mark in front of it does not count. -/
def read (text : String) : Except Fault Fields :=
  let s := match text.toList with
    | '\ufeff' :: s => s
    | s => s
  do return (← readLines (s.length + 1) {} s).fields

end Planner.Toml

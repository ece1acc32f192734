import Planner.Json.Reader.Text

/-! The items of a list and the fields of an object, read one after the other. -/
namespace Planner.Json

/-- Where the next item of a list begins, or what follows the list's end. -/
inductive Next
  | item (s : List Char)
  | done (s : List Char)

/-- Looks for the next item; `first` tells whether none was read before. -/
def nextItem (first : Bool) (s : List Char) : Except Fault Next :=
  match skipSpace s with
  | [] => .error .endInList
  | ']' :: rest => .ok (.done rest)
  | c :: rest =>
    if first then .ok (.item (c :: rest))
    else if c = ',' then
      match skipSpace rest with
      | [] => .error .endInValue
      | ']' :: _ => .error .trailingComma
      | rest => .ok (.item rest)
    else .error .expectedItemEnd

/-- The items up to the closing bracket; `steps` bounds their number. -/
def readItemsLoop {α : Type} (item : Reader α) : (steps : Nat) → (first : Bool) → Reader (List α)
  | 0, _, _ => .error .endInList
  | steps + 1, first, s => do
    match ← nextItem first s with
    | .done rest => return ([], rest)
    | .item s =>
      let (x, s) ← item s
      let (xs, s) ← readItemsLoop item steps false s
      return (x :: xs, s)

/-- A list after its opening bracket. -/
def readItems {α : Type} (item : Reader α) : Reader (List α) := fun s =>
  readItemsLoop item (s.length + 1) true s

/-- Looks for the opening quote of the next key; what is left begins after it. -/
def nextKey (first : Bool) (s : List Char) : Except Fault Next :=
  match skipSpace s with
  | [] => .error .endInObject
  | '}' :: rest => .ok (.done rest)
  | c :: rest =>
    if first then
      if c = '"' then .ok (.item rest) else .error .keyNotText
    else if c = ',' then
      match skipSpace rest with
      | [] => .error .endInValue
      | '"' :: rest => .ok (.item rest)
      | '}' :: _ => .error .trailingComma
      | _ => .error .keyNotText
    else .error .expectedFieldEnd

def readColon (s : List Char) : Except Fault (List Char) :=
  match skipSpace s with
  | [] => .error .endInObject
  | ':' :: rest => .ok rest
  | _ => .error .expectedColon

/-- The fields up to the closing brace, gathered by `field`, which gets each key and reads what
follows it, the colon included; `steps` bounds their number. -/
def readFieldsLoop {σ : Type} (field : σ → String → Reader σ) :
    (steps : Nat) → (first : Bool) → σ → Reader σ
  | 0, _, _, _ => .error .endInObject
  | steps + 1, first, state, s => do
    match ← nextKey first s with
    | .done rest => return (state, rest)
    | .item s =>
      let (key, s) ← readQuoted s
      let (state, s) ← field state key s
      readFieldsLoop field steps false state s

/-- An object after its opening brace. -/
def readFields {σ : Type} (field : σ → String → Reader σ) (start : σ) : Reader σ := fun s =>
  readFieldsLoop field (s.length + 1) true start s

end Planner.Json

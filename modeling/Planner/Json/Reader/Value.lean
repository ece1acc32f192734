import Planner.Json.Reader.Items

/-! Whole JSON values: read, or passed over. -/
namespace Planner.Json

def isNumberStart (c : Char) : Bool := c = '-' || c.isDigit

/-- A value of any kind, given how its lists and objects are read after their opening. -/
def readValueWith (onList onObject : Reader Json) : Reader Json := fun s =>
  match skipSpace s with
  | [] => .error .endInValue
  | c :: rest =>
    if c = 'n' then do return (.null, ← readWord ['u', 'l', 'l'] rest)
    else if c = 't' then do return (.bool true, ← readWord ['r', 'u', 'e'] rest)
    else if c = 'f' then do return (.bool false, ← readWord ['a', 'l', 's', 'e'] rest)
    else if c = '"' then do
      let (content, rest) ← readQuoted rest
      return (.text content, rest)
    else if c = '[' then onList rest
    else if c = '{' then onObject rest
    else if isNumberStart c then do
      let (n, rest) ← readNumber (c :: rest)
      return (.number n, rest)
    else .error .expectedValue

/-- The fields of an object, of which the last of each name counts. -/
def readRecord (value : Reader Json) : Reader Record :=
  readFields (fun record key s => do
    let s ← readColon s
    let (value, s) ← value s
    return (record.set key value, s)) []

/-- A value in which at most `levels` lists and objects stand around each other. -/
def readValue : (levels : Nat) → Reader Json
  | 0 => readValueWith (fun _ => .error .tooDeep) (fun _ => .error .tooDeep)
  | levels + 1 => readValueWith
    (fun s => do
      let (items, s) ← readItems (readValue levels) s
      return (.list items, s))
    (fun s => do
      let (fields, s) ← readRecord (readValue levels) s
      return (.object fields, s))

/-- A numeral that is passed over: its size does not matter. -/
def skipNumber (s : List Char) : Except Fault (List Char) :=
  match Numeral.read s with
  | .ok (_, rest) => .ok rest
  | .error _ => .error .invalidNumber

/-- The items of a list that is passed over; after a comma there has to be a value. -/
def skipItemsLoop (skip : List Char → Except Fault (List Char)) :
    (steps : Nat) → (first : Bool) → List Char → Except Fault (List Char)
  | 0, _, _ => .error .endInList
  | steps + 1, first, s =>
    match skipSpace s with
    | [] => .error .endInList
    | ']' :: rest => .ok rest
    | c :: rest =>
      if first then do skipItemsLoop skip steps false (← skip (c :: rest))
      else if c = ',' then do skipItemsLoop skip steps false (← skip rest)
      else .error .expectedItemEnd

/-- The fields of an object that is passed over; after a comma there has to be a key. -/
def skipFieldsLoop (skip : List Char → Except Fault (List Char)) :
    (steps : Nat) → (first : Bool) → List Char → Except Fault (List Char)
  | 0, _, _ => .error .endInObject
  | steps + 1, first, s =>
    let field (s : List Char) : Except Fault (List Char) := do
      skip (← readColon (← skipQuoted s))
    match skipSpace s with
    | [] => .error .endInObject
    | '}' :: rest => .ok rest
    | '"' :: rest =>
      if first then do skipFieldsLoop skip steps false (← field rest)
      else .error .expectedFieldEnd
    | c :: rest =>
      if first then .error .keyNotText
      else if c = ',' then
        match skipSpace rest with
        | [] => .error .endInObject
        | '"' :: rest => do skipFieldsLoop skip steps false (← field rest)
        | _ => .error .keyNotText
      else .error .expectedFieldEnd

/-- Passes over a value with at most `levels` lists and objects around each other. -/
def skipValueLoop : (levels : Nat) → List Char → Except Fault (List Char)
  | 0, _ => .error .tooDeep
  | levels + 1, s =>
    match skipSpace s with
    | [] => .error .endInValue
    | c :: rest =>
      if c = 'n' then readWord ['u', 'l', 'l'] rest
      else if c = 't' then readWord ['r', 'u', 'e'] rest
      else if c = 'f' then readWord ['a', 'l', 's', 'e'] rest
      else if c = '"' then skipQuoted rest
      else if c = '[' then skipItemsLoop (skipValueLoop levels) (rest.length + 1) true rest
      else if c = '{' then skipFieldsLoop (skipValueLoop levels) (rest.length + 1) true rest
      else if isNumberStart c then skipNumber (c :: rest)
      else .error .expectedValue

/-- Passes over a value, however deep: each level takes a character at least. -/
def skipValue (s : List Char) : Except Fault (List Char) := skipValueLoop (s.length + 1) s

/-- What a text that holds other than the wanted thing is said to hold. -/
def readMismatch {α : Type} (wanted : String) : Reader α := fun s =>
  match readValueWith (fun _ => .error (.wrongType .sequence wanted))
      (fun _ => .error (.wrongType .map wanted)) s with
  | .ok (value, _) => .error (.wrongType value.found wanted)
  | .error e => .error e

def readText : Reader String := fun s =>
  match skipSpace s with
  | '"' :: rest => readQuoted rest
  | s => readMismatch "a string" s

/-- How deep lists and objects may stand around each other in a text. -/
def depthLimit : Nat := 127

/-- A list with the given reader of its items, which may use one level less. -/
def readListOf {α : Type} (item : Reader α) : Reader (List α) := fun s =>
  match skipSpace s with
  | '[' :: rest => readItems item rest
  | s => readMismatch "a sequence" s

/-- Reads a whole text, after which nothing but space may follow. -/
def ofWhole {α : Type} (reader : Reader α) (text : String) : Except Fault α := do
  let (value, rest) ← reader text.toList
  if (skipSpace rest).isEmpty then return value else .error .trailingCharacters

/-- A text that is one list of values. -/
def readList (text : String) : Except Fault (List Json) :=
  ofWhole (readListOf (readValue (depthLimit - 1))) text

/-- A text that is one list of texts. -/
def readTexts (text : String) : Except Fault (List String) := ofWhole (readListOf readText) text

end Planner.Json

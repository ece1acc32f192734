import Planner.Toml.Reader.Scalar

/-! Keys and values, and the lists and tables that hold more of them. -/
namespace Planner.Toml

/-- Passes over spaces, ends of lines and comments; `inside` tells whether a comment has begun. -/
def skipGap (inside : Bool) : List Char → List Char
  | [] => []
  | '\r' :: '\n' :: s => skipGap false s
  | c :: s =>
    if c = '\n' then skipGap false s
    else if inside then if isControl c then c :: s else skipGap true s
    else if c = '#' then skipGap true s
    else if isBlank c then skipGap false s
    else c :: s

/-- A character of a key without quotes. -/
def isKeyChar (c : Char) : Bool := c.isAlphanum || c = '_' || c = '-'

/-- One key, in quotes of a single line or without any. -/
def readKey : Reader String := fun s =>
  match s with
  | '"' :: rest => readBody .basic rest
  | '\'' :: rest => readBody .literal rest
  | s => match s.takeWhile isKeyChar with
    | [] => .error .malformed
    | key => .ok (String.ofList key, s.dropWhile isKeyChar)

/-- How many lists and tables in braces may stand around each other, and how many keys in a row. -/
def depthLimit : Nat := 80

/-- A path of keys with dots between them, and the last of them. What is left begins after the
space behind it. -/
def readPath : (keys : Nat) → Reader (List String × String)
  | 0, _ => .error .tooDeep
  | keys + 1, s => do
    let (key, s) ← readKey (s.dropWhile isBlank)
    match s.dropWhile isBlank with
    | '.' :: s => do
      let ((path, last), s) ← readPath keys s
      return ((key :: path, last), s)
    | s => return (([], key), s)

/-- A path of keys, an equals sign and a value, which is added to the fields of a table. -/
def readField (value : Reader Value) (origin : Origin) (fields : Fields) : Reader Fields :=
  fun s => do
    let ((path, key), s) ← readPath depthLimit s
    match s with
    | '=' :: s => do
      let (value, s) ← value (s.dropWhile isBlank)
      return (← fields.insert path key value origin, s)
    | _ => .error .malformed

/-- The values up to the closing bracket. Between two of them stands a comma, and after the last
one there may be one. `steps` bounds the number of values. -/
def readItems (value : Reader Value) : (steps : Nat) → Reader (List Value)
  | 0, _ => .error .malformed
  | steps + 1, s =>
    match skipGap false s with
    | ']' :: rest => .ok ([], rest)
    | s => do
      let (item, s) ← value s
      match skipGap false s with
      | ']' :: rest => return ([item], rest)
      | ',' :: s => do
        let (items, s) ← readItems value steps s
        return (item :: items, s)
      | _ => .error .malformed

/-- The fields up to the closing brace, with commas as in a list. -/
def readFields (value : Reader Value) : (steps : Nat) → Fields → Reader Fields
  | 0, _, _ => .error .malformed
  | steps + 1, fields, s =>
    match skipGap false s with
    | '\x7d' :: rest => .ok (fields, rest)
    | s => do
      let (fields, s) ← readField value .braces fields s
      match skipGap false s with
      | '\x7d' :: rest => return (fields, rest)
      | ',' :: s => readFields value steps fields s
      | _ => .error .malformed

/-- A value, given how the lists and tables in it are read after their opening. -/
def readValueWith (onList onTable : Reader Value) : Reader Value := fun s =>
  match opening? s, s with
  | some (q, rest), _ => do
    let (text, rest) ← readBody q rest
    return (.text text, rest)
  | none, '[' :: rest => onList rest
  | none, '\x7b' :: rest => onTable rest
  | none, s => readScalar s

/-- A value in which at most `levels` lists and tables stand around each other. -/
def readValue : (levels : Nat) → Reader Value
  | 0 => readValueWith (fun _ => .error .tooDeep) (fun _ => .error .tooDeep)
  | levels + 1 => readValueWith
    (fun s => do
      let (items, s) ← readItems (readValue levels) (s.length + 1) s
      return (.list items, s))
    (fun s => do
      let (fields, s) ← readFields (readValue levels) (s.length + 1) [] s
      return (.table .braces fields, s))

end Planner.Toml

import Planner.Json.Numeral
import Planner.Text.Hex

/-! The quoted texts of a JSON text, and what its values are made of besides. -/
namespace Planner.Json

def isSpace (c : Char) : Bool := c = ' ' || c = '\t' || c = '\n' || c = '\r'

def skipSpace (s : List Char) : List Char := s.dropWhile isSpace

/-- The rest of a word whose first letter was seen. -/
def readWord : (letters : List Char) → List Char → Except Fault (List Char)
  | [], s => .ok s
  | _ :: _, [] => .error .endInValue
  | letter :: letters, c :: s => if c = letter then readWord letters s else .error .expectedWord

def utf8Length (s : List Char) : Nat := s.foldl (fun n c => n + c.utf8Size) 0

/-- Four hexadecimal digits. -/
def readHex (s : List Char) : Except Fault (Nat × List Char) :=
  let value : Option (Nat × List Char) := match s with
    | a :: b :: c :: d :: rest => do
      let a ← Text.hexValue? a
      let b ← Text.hexValue? b
      let c ← Text.hexValue? c
      let d ← Text.hexValue? d
      return (a * 4096 + b * 256 + c * 16 + d, rest)
    | _ => none
  match value with
  | some result => .ok result
  | none => .error (if utf8Length s < 4 then .endInText else .invalidEscape)

/-- The second half of a pair of surrogates, after the first half `high`. -/
def readTrailing (high : Nat) : Reader Char
  | [] => .error .endInText
  | ['\\'] => .error .endInText
  | '\\' :: 'u' :: s => do
    let (low, rest) ← readHex s
    if 0xDC00 ≤ low ∧ low ≤ 0xDFFF then
      return (Char.ofNat ((high - 0xD800) * 0x400 + (low - 0xDC00) + 0x10000), rest)
    else .error .loneSurrogate
  | _ => .error .surrogateCutShort

def readUnicode : Reader Char := fun s => do
  let (code, rest) ← readHex s
  if 0xDC00 ≤ code ∧ code ≤ 0xDFFF then .error .loneSurrogate
  else if 0xD800 ≤ code ∧ code ≤ 0xDBFF then readTrailing code rest
  else return (Char.ofNat code, rest)

/-- What a backslash and one letter stand for. -/
def shortEscape? (c : Char) : Option Char :=
  if c = '"' ∨ c = '\\' ∨ c = '/' then some c
  else if c = 'b' then some '\x08'
  else if c = 'f' then some '\x0c'
  else if c = 'n' then some '\n'
  else if c = 'r' then some '\r'
  else if c = 't' then some '\t'
  else none

/-- The character that an escape stands for, after its backslash. -/
def readEscape : Reader Char
  | [] => .error .endInText
  | 'u' :: s => readUnicode s
  | c :: s => match shortEscape? c with
    | some e => .ok (e, s)
    | none => .error .invalidEscape

/-- The same for a text that is thrown away: any four hexadecimal digits will do. -/
def skipEscape : Reader Char
  | [] => .error .endInText
  | 'u' :: s => do
    let (_, rest) ← readHex s
    return ('u', rest)
  | c :: s => if (shortEscape? c).isSome then .ok (c, s) else .error .invalidEscape

/-- The characters up to the closing quote; `steps` bounds their number. -/
def readQuotedLoop (escape : Reader Char) : (steps : Nat) → Reader (List Char)
  | _, [] => .error .endInText
  | 0, _ => .error .endInText
  | steps + 1, c :: s =>
    if c = '"' then .ok ([], s)
    else if c = '\\' then do
      let (e, s) ← escape s
      let (chars, s) ← readQuotedLoop escape steps s
      return (e :: chars, s)
    else if c.toNat < 32 then .error .controlCharacter
    else do
      let (chars, s) ← readQuotedLoop escape steps s
      return (c :: chars, s)

/-- A text after its opening quote. -/
def readQuoted : Reader String := fun s => do
  let (chars, rest) ← readQuotedLoop readEscape s.length s
  return (String.ofList chars, rest)

def skipQuoted (s : List Char) : Except Fault (List Char) := do
  return (← readQuotedLoop skipEscape s.length s).2

end Planner.Json

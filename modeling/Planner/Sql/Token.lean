import Planner.Json.Number

/-! The words and marks of a statement's text. -/
namespace Planner.Sql

inductive Token
  | word (name : String)
  | text (s : String)
  | number (n : Number)
  | placeholder
  | star
  | comma
  | leftParen
  | rightParen
  | equals
  | atLeast
  | atMost
  | semicolon
deriving DecidableEq

def Token.describe : Token → String
  | .word name => s!"'{name}'"
  | .text s => s!"string '{s}'"
  | .number n => "number " ++ String.ofList n.toText
  | .placeholder => "'?'"
  | .star => "'*'"
  | .comma => "','"
  | .leftParen => "'('"
  | .rightParen => "')'"
  | .equals => "'='"
  | .atLeast => "'>='"
  | .atMost => "'<='"
  | .semicolon => "';'"

inductive ParseError
  | unexpectedChar (c : Char) (offset : Nat)
  | unterminatedText
  | expected (wanted found : String)
  | unknownTable (name : String)
  | columnCount (columns values : Nat)
  | updateNotById (column : String)
  | unpairedRange (column : String)
  | parameterCount (placeholders parameters : Nat)
  | patternNotText (pattern : String)

def ParseError.message : ParseError → String
  | .unexpectedChar c offset => s!"Unexpected character '{c}' at offset {offset}"
  | .unterminatedText => "Unterminated string literal"
  | .expected wanted found => s!"Expected {wanted}, found {found}"
  | .unknownTable name => s!"Unknown table '{name}'"
  | .columnCount columns values =>
    s!"INSERT names {columns} column(s) but supplies {values} value(s)"
  | .updateNotById column =>
    s!"UPDATE must be keyed by 'WHERE id = ?', found column '{column}'"
  | .unpairedRange column =>
    s!"Range bound on '{column}' must be written as '{column} >= ? AND {column} <= ?'"
  | .parameterCount placeholders parameters =>
    s!"Statement has {placeholders} placeholder(s) but {parameters} parameter(s) were given"
  | .patternNotText pattern => s!"LIKE pattern must be text, got {pattern}"

end Planner.Sql

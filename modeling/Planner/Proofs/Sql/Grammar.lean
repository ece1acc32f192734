import Planner.Proofs.Sql.Normal
import Planner.Sql.Condition
import Planner.Text.Blank

/-! The texts that spell a statement: its symbols from left to right, every value a question mark. -/
namespace Planner

namespace Sql

/-- What white space does not divide. -/
inductive Symbol
  /-- A keyword or the name of a table, in letters of any case. -/
  | word (name : String)
  /-- The name of a column, between double quotes. -/
  | column (name : String)
  /-- A single mark. -/
  | mark (c : Char)
  /-- The operator `>=` or `<=`. -/
  | bound (c : Char)

/-- Whether the characters write the symbol. -/
def Symbol.Spells : Symbol → List Char → Prop
  | .word name, chars => Text.sameIgnoringCase (String.ofList chars) name
  | .column name, chars => chars = '"' :: (name.toList ++ ['"'])
  | .mark c, chars => chars = [c]
  | .bound c, chars => chars = [c, '=']

instance (symbol : Symbol) (chars : List Char) : Decidable (symbol.Spells chars) :=
  match symbol with
  | .word name => inferInstanceAs (Decidable (Text.sameIgnoringCase _ name = true))
  | .column _ | .mark _ | .bound _ => inferInstanceAs (Decidable (_ = _))

/-- White space, or nothing. -/
def Blank (chars : List Char) : Prop := ∀ c ∈ chars, Text.isBlank c

instance (chars : List Char) : Decidable (Blank chars) :=
  List.decidableBAll (fun c => Text.isBlank c = true) chars

/-- The texts of symbols from left to right, with white space between any two. -/
inductive Spelled : List Symbol → List Char → Prop
  | single {symbol : Symbol} {chars : List Char} (h : symbol.Spells chars) :
    Spelled [symbol] chars
  | cons {symbol : Symbol} {symbols : List Symbol} {chars gap rest : List Char}
    (h : symbol.Spells chars) (hgap : Blank gap) (hne : gap ≠ []) (hrest : Spelled symbols rest) :
    Spelled (symbol :: symbols) (chars ++ gap ++ rest)

/-- Parts with commas between them. -/
def commas (parts : List (List Symbol)) : List Symbol := [.mark ','].intercalate parts

def inParentheses (parts : List (List Symbol)) : List Symbol :=
  .mark '(' :: (commas parts ++ [.mark ')'])

namespace Comparison

def symbols : Comparison → List Symbol
  | .equal column _ => [.column column, .mark '=', .mark '?']
  | .like column _ => [.column column, .word "like", .mark '?']
  | .atLeast column _ => [.column column, .bound '>', .mark '?']
  | .atMost column _ => [.column column, .bound '<', .mark '?']

def column : Comparison → String
  | .equal column _ | .like column _ | .atLeast column _ | .atMost column _ => column

def value : Comparison → Json
  | .equal _ value | .like _ value | .atLeast _ value | .atMost _ value => value

end Comparison
end Sql

open Sql

namespace Predicate

/-- The comparisons that an atom is written with; a range takes two. -/
def bounds : Predicate → List Comparison
  | .equal column value => [.equal column value]
  | .like column pattern => [.like column (.text pattern)]
  | .range column low high => [.atLeast column low, .atMost column high]
  | .all _ | .any _ => []

/-- The comparisons of a group. -/
def comparisons : Predicate → List Comparison
  | .all parts => parts.flatMap bounds
  | atom => bounds atom

def groupSymbols (group : Predicate) : List Symbol :=
  [.word "and"].intercalate (group.comparisons.map Comparison.symbols)

/-- The groups of a condition. -/
def groups : Predicate → List Predicate
  | .any groups => groups
  | group => [group]

def symbols (condition : Predicate) : List Symbol :=
  [.word "or"].intercalate (condition.groups.map groupSymbols)

end Predicate

def OnConflict.symbols : OnConflict → List Symbol
  | .append => []
  | .replace => [.word "or", .word "replace"]
  | .ignore => [.word "or", .word "ignore"]

/-- The symbols of a direction; an ascending one may stay unsaid. -/
def Direction.symbols (explicit : Bool) : Direction → List Symbol
  | .ascending => if explicit then [.word "asc"] else []
  | .descending => [.word "desc"]

def Ordered.symbols (explicit : Bool) (order : Ordered) : List Symbol :=
  [.word "order", .word "by", .column order.column] ++ order.direction.symbols explicit

namespace Statement

def filterSymbols : Option Predicate → List Symbol
  | some condition => .word "where" :: condition.symbols
  | none => []

/-- The symbols of a projection; a star may stand behind the column of which the distinct values are
asked for. -/
def projectionSymbols (star : Bool) : Option String → List Symbol
  | some column => .word "distinct" :: .column column :: if star then [.mark '*'] else []
  | none => [.mark '*']

def insertSymbols (table : Table) (columns : List String) (values : List Json)
    (onConflict : OnConflict) : List Symbol :=
  onConflict.symbols ++ (.word "into" :: .word table.name ::
    (inParentheses (columns.map fun column => [.column column]) ++
      (.word "values" :: inParentheses (values.map fun _ => [.mark '?']))))

def updateSymbols (table : Table) (assignments : List (String × Json)) : List Symbol :=
  .word table.name :: .word "set" ::
    (commas (assignments.map fun field => [.column field.1, .mark '=', .mark '?']) ++
      [.word "where", .column "id", .mark '=', .mark '?'])

def selectSymbols (explicit star : Bool) (s : Select) : List Symbol :=
  projectionSymbols star s.distinct ++ (.word "from" :: .word s.table.name ::
    (filterSymbols s.filter ++ (s.order.map (Ordered.symbols explicit)).getD []))

/-- The symbols of a statement from left to right, with those that may be left out or not. -/
def symbols (explicit star : Bool) : Statement → List Symbol
  | .insert table columns values onConflict =>
    .word "insert" :: insertSymbols table columns values onConflict
  | .update table assignments _ => .word "update" :: updateSymbols table assignments
  | .delete table filter =>
    .word "delete" :: .word "from" :: .word table.name :: filterSymbols filter
  | .select s => .word "select" :: selectSymbols explicit star s

/-- Whether the text spells the statement. White space may stand around it, and a semicolon at its
end. -/
def SpelledBy (s : Statement) (text : String) : Prop :=
  ∃ explicit star before body gap stop after, Blank before ∧ Blank gap ∧ Blank after ∧
    (stop = [] ∨ stop = [';']) ∧ Spelled (s.symbols explicit star) body ∧
    text.toList = before ++ (body ++ (gap ++ (stop ++ after)))

end Statement
end Planner

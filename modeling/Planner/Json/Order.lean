import Planner.Json.Printer

/-! How values are compared in a condition, and how they are ordered in a sorted list. -/
namespace Planner.Json

/-- False before true. -/
def compareBool (a b : Bool) : Ordering := compare a.toNat b.toNat

/-- The natural order of two values of one kind; values of different kinds, and lists, objects
and nulls, have none. -/
def compare? : Json → Json → Option Ordering
  | .number a, .number b => some (a.toDouble.compare b.toDouble)
  | .text a, .text b => some (compare a b)
  | .bool a, .bool b => some (compareBool a b)
  | _, _ => none

/-- The place of a value's kind in a sorted column: missing and null, then booleans, numbers,
texts, and last lists and objects. -/
def kindRank : Option Json → Nat
  | none | some .null => 0
  | some (.bool _) => 1
  | some (.number _) => 2
  | some (.text _) => 3
  | some (.list _) | some (.object _) => 4

/-- The order of a sorted column. Lists and objects go by their text. -/
def sortCompare (a b : Option Json) : Ordering :=
  (compare (kindRank a) (kindRank b)).then <|
    match a, b with
    | some (.number a), some (.number b) => a.toDouble.totalCompare b.toDouble
    | some (.text a), some (.text b) => compare a b
    | some (.bool a), some (.bool b) => compareBool a b
    | some (.list a), some b => compare (Json.list a).toText b.toText
    | some (.object a), some b => compare (Json.object a).toText b.toText
    | _, _ => .eq

end Planner.Json

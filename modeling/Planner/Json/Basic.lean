import Planner.Json.Number

/-! JSON values. The fields of an object stand in the order of their names. -/
namespace Planner

inductive Json
  | null
  | bool (b : Bool)
  | number (n : Number)
  | text (s : String)
  | list (items : List Json)
  | object (fields : List (String × Json))
deriving Inhabited

/-- The fields of one row of a table, or of any object, in the order of their names. -/
abbrev Record := List (String × Json)

namespace Record

def get? (name : String) : Record → Option Json
  | [] => none
  | (key, value) :: rest => if key = name then some value else get? name rest

/-- Sets one field, keeping the names in order and each name once. -/
def set (name : String) (value : Json) : Record → Record
  | [] => [(name, value)]
  | (key, old) :: rest =>
    if key = name then (name, value) :: rest
    else if name < key then (name, value) :: (key, old) :: rest
    else (key, old) :: set name value rest

/-- The record with the given fields, of which the last of each name counts. -/
def ofFields (fields : List (String × Json)) : Record :=
  fields.foldl (fun record field => record.set field.1 field.2) []

def has (name : String) (record : Record) : Bool := (record.get? name).isSome

end Record

namespace Json

mutual

/-- Equality of values as a structure, decided. -/
def decEq : (a b : Json) → Decidable (a = b)
  | .null, .null => isTrue rfl
  | .bool a, .bool b => if h : a = b then isTrue (by rw [h]) else isFalse (by simp [h])
  | .number a, .number b => if h : a = b then isTrue (by rw [h]) else isFalse (by simp [h])
  | .text a, .text b => if h : a = b then isTrue (by rw [h]) else isFalse (by simp [h])
  | .list a, .list b => match decEqList a b with
    | isTrue h => isTrue (by rw [h])
    | isFalse h => isFalse (by simp [h])
  | .object a, .object b => match decEqFields a b with
    | isTrue h => isTrue (by rw [h])
    | isFalse h => isFalse (by simp [h])
  | .null, .bool _ | .null, .number _ | .null, .text _ | .null, .list _ | .null, .object _
  | .bool _, .null | .bool _, .number _ | .bool _, .text _ | .bool _, .list _ | .bool _, .object _
  | .number _, .null | .number _, .bool _ | .number _, .text _ | .number _, .list _
  | .number _, .object _
  | .text _, .null | .text _, .bool _ | .text _, .number _ | .text _, .list _ | .text _, .object _
  | .list _, .null | .list _, .bool _ | .list _, .number _ | .list _, .text _ | .list _, .object _
  | .object _, .null | .object _, .bool _ | .object _, .number _ | .object _, .text _
  | .object _, .list _ => isFalse (by simp)

def decEqList : (a b : List Json) → Decidable (a = b)
  | [], [] => isTrue rfl
  | a :: as, b :: bs => match decEq a b, decEqList as bs with
    | isTrue h, isTrue t => isTrue (by rw [h, t])
    | isFalse h, _ => isFalse (by simp [h])
    | _, isFalse t => isFalse (by simp [t])
  | [], _ :: _ | _ :: _, [] => isFalse (by simp)

def decEqFields : (a b : List (String × Json)) → Decidable (a = b)
  | [], [] => isTrue rfl
  | (k, a) :: as, (l, b) :: bs =>
    if hk : k = l then match decEq a b, decEqFields as bs with
      | isTrue h, isTrue t => isTrue (by rw [hk, h, t])
      | isFalse h, _ => isFalse (by simp [h])
      | _, isFalse t => isFalse (by simp [t])
    else isFalse (by simp [hk])
  | [], _ :: _ | _ :: _, [] => isFalse (by simp)

end

instance : DecidableEq Json := decEq

mutual

/-- The value with every zero made unsigned, in lists and objects too. -/
def unsignedZeros : Json → Json
  | .number n => .number n.unsignedZero
  | .list items => .list (unsignedZerosList items)
  | .object fields => .object (unsignedZerosFields fields)
  | .null => .null
  | .bool b => .bool b
  | .text s => .text s

def unsignedZerosList : List Json → List Json
  | [] => []
  | item :: rest => unsignedZeros item :: unsignedZerosList rest

def unsignedZerosFields : List (String × Json) → List (String × Json)
  | [] => []
  | (key, value) :: rest => (key, unsignedZeros value) :: unsignedZerosFields rest

end

/-- Whether two values are the same, the two zeros among doubles being one number. -/
def same (a b : Json) : Bool := decide (a.unsignedZeros = b.unsignedZeros)

mutual

/-- How many lists and objects stand around each other at most. -/
def depth : Json → Nat
  | .list items => depthList items + 1
  | .object fields => depthFields fields + 1
  | .null | .bool _ | .number _ | .text _ => 0

def depthList : List Json → Nat
  | [] => 0
  | item :: rest => max (depth item) (depthList rest)

def depthFields : List (String × Json) → Nat
  | [] => 0
  | (_, value) :: rest => max (depth value) (depthFields rest)

end

end Json
end Planner

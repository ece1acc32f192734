import Planner.Entity.Layout
import Planner.Text.LowerCase

/-! Columns that hold one of a few names. -/
namespace Planner

open Json (Fault)

/-- A type whose members have names. -/
class Choice (α : Type) where
  all : List α
  name : α → String

namespace Choice

variable {α : Type} [Choice α]

def names (α : Type) [Choice α] : List String := (all (α := α)).map name

def ofName? (s : String) : Option α := all.find? (name · = s)

/-- The member that a text names in letters of any case. -/
def ofText? (s : String) : Option α := ofName? (String.ofList (Text.lower s.toList))

/-- What is said of a text that names no member. -/
def refusal (s : String) : String := s!"invalid value '{s}'"

def ofName (s : String) : Except Fault α :=
  match ofName? s with
  | some a => .ok a
  | none => .error (.unknownVariant s (names α))

/-- A name, or an object with the name as its one key and null under it. -/
def read : Json → Except Fault α
  | .text s => ofName s
  | .object [(key, value)] => do
    let a ← ofName key
    match value with
    | .null => return a
    | other => .error (.wrongType other.found "unit")
  | .object _ => .error .notOneKey
  | other => .error (.wrongType other.found "string or map")

end Choice

inductive Priority
  | low
  | medium
  | high
deriving DecidableEq

instance : Choice Priority where
  all := [.low, .medium, .high]
  name
    | .low => "low"
    | .medium => "medium"
    | .high => "high"

inductive TaskStatus
  | incomplete
  | complete
deriving DecidableEq

instance : Choice TaskStatus where
  all := [.incomplete, .complete]
  name
    | .incomplete => "incomplete"
    | .complete => "complete"

inductive EventType
  | work
  | personal
  | health
  | other
deriving DecidableEq

instance : Choice EventType where
  all := [.work, .personal, .health, .other]
  name
    | .work => "work"
    | .personal => "personal"
    | .health => "health"
    | .other => "other"

inductive Frequency
  | daily
  | weekly
deriving DecidableEq

instance : Choice Frequency where
  all := [.daily, .weekly]
  name
    | .daily => "daily"
    | .weekly => "weekly"

inductive Theme
  | light
  | dark
deriving DecidableEq

instance : Choice Theme where
  all := [.light, .dark]
  name
    | .light => "light"
    | .dark => "dark"

end Planner

import Planner.Database
import Planner.Instant

/-! A store together with the clock and the ids that new rows take. -/
namespace Planner

structure Workspace where
  store : Store
  now : Instant
  /-- How many ids were handed out. -/
  issued : Nat

/-- Work on a workspace that may stop with an error; what was done until then stays done. -/
abbrev Action (ε α : Type) := EStateM ε Workspace α

/-- The n-th id: the number in a universally unique id of the random kind. -/
def idOfNumber (n : Nat) : String :=
  let digits := Nat.toDigits 16 n
  "00000000-0000-4000-8000-" ++ String.ofList (List.replicate (12 - digits.length) '0' ++ digits)

namespace Workspace

variable {ε α : Type}

/-- Looks something up in the store. -/
def view (read : Store → Except ε α) : Action ε α := fun w =>
  match read w.store with
  | .ok a => .ok a w
  | .error e => .error e w

/-- Changes the store, or leaves it as it is and fails. -/
def change (run : Store → Except ε (α × Store)) : Action ε α := fun w =>
  match run w.store with
  | .ok (a, store) => .ok a { w with store }
  | .error e => .error e w

/-- Changes the store, perhaps in part only before it fails. -/
def attempt (run : Store → Except ε α × Store) : Action ε α := fun w =>
  match run w.store with
  | (.ok a, store) => .ok a { w with store }
  | (.error e, store) => .error e { w with store }

def newId : Action ε String := fun w =>
  .ok (idOfNumber (w.issued + 1)) { w with issued := w.issued + 1 }

/-- The text of the current moment. -/
def timestamp : Action ε String := fun w => .ok w.now.toText w

end Workspace
end Planner

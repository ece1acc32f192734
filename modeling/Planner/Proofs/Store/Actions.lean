import Planner.Preferences
import Planner.Proofs.Store.Reaches

/-! What work leaves true, and the statements by which an action on a workspace comes to its end. -/
namespace Planner

section Keeps

variable {ε σ α β : Type} {I : σ → Prop}

/-- The state in which work ends, well or not. -/
def stateAfter : EStateM.Result ε σ α → σ
  | .ok _ s | .error _ s => s

/-- A property of the state that work leaves true, whether it ends well or not. -/
def Keeps (I : σ → Prop) (work : EStateM ε σ α) : Prop := ∀ s, I s → I (stateAfter (work s))

namespace Keeps

theorem pure (a : α) : Keeps I (Pure.pure a : EStateM ε σ α) := fun _ h => h

theorem throw (e : ε) : Keeps I (MonadExcept.throw e : EStateM ε σ α) := fun _ h => h

theorem get : Keeps I (MonadState.get : EStateM ε σ σ) := fun _ h => h

/-- What the first part leaves true and the second part keeps is true after both. -/
theorem stateAfter_bind {work : EStateM ε σ α} {next : α → EStateM ε σ β} {s : σ}
    (h : I (stateAfter (work s))) (hnext : ∀ a, Keeps I (next a)) :
    I (stateAfter ((work >>= next) s)) := by
  change I (stateAfter (EStateM.bind work next s))
  unfold EStateM.bind
  cases hrun : work s with
  | ok a s' =>
    rw [hrun] at h
    exact hnext a s' h
  | error e s' =>
    rw [hrun] at h
    exact h

theorem bind {work : EStateM ε σ α} {next : α → EStateM ε σ β} (hwork : Keeps I work)
    (hnext : ∀ a, Keeps I (next a)) : Keeps I (work >>= next) :=
  fun s h => stateAfter_bind (hwork s h) hnext

theorem forM {items : List α} {work : α → EStateM ε σ PUnit} (h : ∀ a, Keeps I (work a)) :
    Keeps I (items.forM work) := by
  induction items with
  | nil => exact pure _
  | cons a items ih => exact bind (h a) fun _ => ih

theorem forIn {items : List α} {start : β} {work : α → β → EStateM ε σ (ForInStep β)}
    (h : ∀ a b, Keeps I (work a b)) : Keeps I (ForIn.forIn items start work) := by
  induction items generalizing start with
  | nil => exact pure _
  | cons a items ih =>
    rw [List.forIn_cons]
    refine bind (h a start) fun step => ?_
    cases step with
    | done b => exact pure _
    | yield b => exact ih

end Keeps
end Keeps

/-- Whether the store of a workspace takes every write and every table of it can be read. -/
def Workspace.Healthy (w : Workspace) : Prop := w.store.Healthy

/-- Whether the store of a workspace comes from another by statements of a kind. -/
def Workspace.Reached (start : Store) (kind : Statement → Prop) (w : Workspace) : Prop :=
  start.Reaches kind w.store

namespace Workspace

variable {ε α : Type} {I : Workspace → Prop} {start : Store} {kind : Statement → Prop}
  {statement : Statement} {table : Table}

/-- Nothing changes when something is looked up. -/
theorem keeps_view (read : Store → Except ε α) : Keeps I (view read) := by
  intro w h
  unfold view
  cases read w.store <;> exact h

theorem reached_newId : Keeps (Reached start kind) (newId : Action ε String) := fun _ h => h

theorem reached_timestamp : Keeps (Reached start kind) (timestamp : Action ε String) :=
  fun _ h => h

theorem reached_run (hkind : kind statement) : Keeps (Reached start kind) (run statement) := by
  intro w h
  unfold run change
  cases hrun : w.store.apply statement with
  | error e =>
    simp only [hrun]
    exact h
  | ok result =>
    simp only [hrun]
    exact h.step hkind hrun

theorem reached_append {columns : List (String × Json)}
    (hkind : kind (.insertFields table columns .append)) :
    Keeps (Reached start kind) (append table columns) :=
  (reached_run hkind).bind fun _ => .pure _

theorem reached_assignById {assignments : List (String × Json)} {id : String}
    (hkind : kind (.update table assignments (.text id))) :
    Keeps (Reached start kind) (assignById table id assignments) := by
  unfold assignById
  split_ifs
  · exact .pure _
  · exact reached_run hkind

theorem reached_removeWhere {column text : String}
    (hkind : kind (.delete table (some (.hasText column text)))) :
    Keeps (Reached start kind) (removeWhere table column text) :=
  reached_run hkind

end Workspace
end Planner

import Planner.Proofs.Operations

/-! What the tables of a planner hold whose rows are all plain: when it was just made, when it is
opened again, and after a statement. -/
namespace Planner.Store

open CommandLine (storeAfter fresh)

variable {store : Store} {content : Table → List Record} {statement : Statement}

namespace HoldsPlain

/-- A statement that fails makes nothing of the rows, since every write is taken. -/
theorem after_of_error (h : store.HoldsPlain content) {e : DatabaseError}
    (hrun : store.apply statement = .error e) : statement.after content = content := by
  unfold Statement.after Statement.rowsAfter
  split
  · rename_i count written heffect
    rw [apply_of_effect (h.holds.tableRows statement.table) heffect] at hrun
    dsimp only at hrun
    rw [setTableRows_healthy h.holds.takesWrites] at hrun
    cases hrun
  · rw [Function.update_eq_self]

/-- A statement with plain values, whether it fails or not, makes of the tables what it makes of
their rows. -/
theorem storeAfter (h : store.HoldsPlain content) (hvalues : ∀ v ∈ statement.values, v.Plain) :
    (storeAfter statement store).HoldsPlain (statement.after content) := by
  unfold CommandLine.storeAfter
  cases hrun : store.apply statement with
  | ok result => exact h.apply hvalues hrun
  | error e =>
    rw [h.after_of_error hrun]
    exact h

/-- A planner that is opened comes to hold the default settings where it had none. -/
theorem prepare (h : store.HoldsPlain content) : store.prepare.2.HoldsPlain
    (Function.update content .settings (settingsOr (content .settings))) := by
  obtain ⟨store', hprepare, hstore⟩ := prepare_holds h.holds
  rw [hprepare]
  refine ⟨hstore, fun table row hrow => ?_⟩
  by_cases hsettings : table = .settings
  · subst hsettings
    rw [Function.update_self, settingsOr] at hrow
    split_ifs at hrow
    · exact plain_defaultSettings row hrow
    · exact h.plain .settings row hrow
  · rw [Function.update_of_ne hsettings] at hrow
    exact h.plain table row hrow

end HoldsPlain

/-- What a planner holds that was just made: the default settings. -/
theorem holdsPlain_fresh (now : Instant) : (fresh now).store.HoldsPlain
    (Function.update (fun _ => []) .settings defaultSettings) :=
  HoldsPlain.prepare ⟨holds_empty, fun _ _ hrow => absurd hrow (List.not_mem_nil)⟩

end Planner.Store

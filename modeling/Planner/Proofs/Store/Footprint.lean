import Planner.Proofs.Store.Reaches

/-! What a statement reads and writes on a host that takes every write: the text of its table. -/
namespace Planner.Store

variable {store store' other : Store} {table : Table} {statement : Statement} {key : String}
  {written : Option (List Record)} {count : Nat}

/-- The store after the rows of a table were written, if there are any to write. -/
def rewritten (table : Table) (store : Store) : Option (List Record) → Store
  | none => store
  | some rows => store.written table rows

@[simp] theorem quota_rewritten : (store.rewritten table written).quota = store.quota := by
  cases written <;> rfl

theorem text?_rewritten_ne (h : key ≠ table.name) :
    (store.rewritten table written).text? key = store.text? key := by
  cases written with
  | none => rfl
  | some rows => exact lookup_putText_ne h _ _

theorem text?_rewritten_congr (h : store.text? table.name = other.text? table.name) :
    (store.rewritten table written).text? table.name =
      (other.rewritten table written).text? table.name := by
  cases written with
  | none => exact h
  | some rows => exact (lookup_putText_self ..).trans (lookup_putText_self ..).symm

theorem isSome_text?_rewritten (h : (store.text? key).isSome) :
    ((store.rewritten table written).text? key).isSome := by
  cases written with
  | none => exact h
  | some rows =>
    by_cases hkey : key = table.name
    · rw [hkey]
      exact Option.isSome_iff_exists.mpr ⟨_, lookup_putText_self ..⟩
    · rwa [text?_rewritten_ne hkey]

theorem tableRows_congr (h : store.text? table.name = other.text? table.name) :
    store.tableRows table = other.tableRows table := by
  simp only [tableRows, Store.rows, h]

/-- A statement writes what it makes of the rows of its table. -/
theorem apply_takesWrites (h : store.quota = none) (hselect : ∀ s, statement ≠ .select s) :
    store.apply statement = (store.tableRows statement.table >>= statement.effect).map
      fun effect => (effect.1, store.rewritten statement.table effect.2) := by
  rw [apply_eq_effect hselect]
  cases store.tableRows statement.table >>= statement.effect with
  | error e => rfl
  | ok effect =>
    obtain ⟨count, written⟩ := effect
    cases written with
    | none => rfl
    | some rows =>
      change (do return (count, ← store.setTableRows statement.table rows)) = _
      rw [setTableRows_healthy h]
      rfl

theorem exists_rewritten (h : store.quota = none)
    (hrun : store.apply statement = .ok (count, store')) :
    ∃ written, store' = store.rewritten statement.table written := by
  obtain ⟨rows, written, -, -, hset⟩ := apply_cases hrun
  refine ⟨written, ?_⟩
  cases written with
  | none => exact hset
  | some rows => exact Except.ok.inj (hset.symm.trans (setTableRows_healthy h))

end Planner.Store

import Planner.Proofs.Store.Reaches

/-! A store that is made ready: nothing changes but for the settings where there were none. -/
namespace Planner.Store

open Json

variable {store : Store} {content : Table → List Record}

theorem holds_empty : empty.Holds fun _ => [] := ⟨rfl, fun _ => rfl⟩

theorem setRows_healthy {table : Table} {rows : List Record} (h : store.quota = none) :
    store.setRows table.name rows = .ok (store.written table rows) := by
  simp [setRows, put, h, Store.written]

theorem createMissing_holds (h : store.Holds content) (tables : List Table) :
    ∃ store', createMissing tables store = (.ok (), store') ∧ store'.Holds content := by
  induction tables generalizing store with
  | nil => exact ⟨store, rfl, h⟩
  | cons table rest ih =>
    unfold createMissing
    split_ifs with htext
    · exact ih h
    · have hnone : store.text? table.name = none := by simpa using htext
      have hempty : content table = [] := by
        have hrows := h.rows table
        unfold Store.rows at hrows
        rw [hnone] at hrows
        exact (Except.ok.inj hrows).symm
      have hwritten : (store.written table []).Holds _ := h.written (by simp)
      rw [List.map_nil, ← hempty, Function.update_eq_self] at hwritten
      rw [setRows_healthy h.takesWrites]
      exact ih (hempty ▸ hwritten)

/-- The settings after a store was made ready. -/
def settingsOr (rows : List Record) : List Record := if rows = [] then defaultSettings else rows

theorem plain_setting (key value : String) :
    Record.Plain [("key", .text key), ("value", .text value)] where
  ordered := List.pairwise_pair.mpr (show "key" < "value" by decide)
  fields := by
    simp only [List.forall_mem_cons]
    exact ⟨Json.plain_text _, Json.plain_text _, by simp⟩

theorem plain_defaultSettings : ∀ row ∈ defaultSettings, row.Plain := by
  simp only [defaultSettings, List.forall_mem_cons]
  exact ⟨plain_setting _ _, plain_setting _ _, by simp⟩

theorem prepare_holds (h : store.Holds content) : ∃ store', store.prepare = (.ok (), store') ∧
    store'.Holds (Function.update content .settings (settingsOr (content .settings))) := by
  obtain ⟨store₁, hcreate, h₁⟩ := createMissing_holds h Table.all
  have hrows := h₁.rows .settings
  unfold prepare
  rw [hcreate]
  simp only [seedSettings, hrows]
  cases hsettings : content .settings with
  | nil =>
    have hwritten : (store₁.written .settings defaultSettings).Holds _ :=
      h₁.written fun row hrow => (plain_defaultSettings row hrow).storable
    simp only [setRows_healthy h₁.takesWrites]
    exact ⟨_, rfl, hwritten⟩
  | cons row rest =>
    refine ⟨store₁, rfl, ?_⟩
    simp only [settingsOr, reduceCtorEq, if_false]
    rw [← hsettings, Function.update_eq_self]
    exact h₁

end Planner.Store

import Planner.Proofs.Sql.Normal
import Planner.Proofs.Store.Upsert

/-! Statements that change a table: whether every table can be read afterwards. -/
namespace Planner

/-- The columns that a statement sets, each to the last of its values. -/
def Statement.fields : Statement → Record
  | .insert _ columns values _ => .ofFields (columns.zip values)
  | .update _ assignments _ => .ofFields assignments
  | .delete .. | .select _ => []

namespace Store

open Json Outcome

variable {store store' : Store} {content : Table → List Record} {table : Table}
  {rows : List Record} {row : Record} {fields : List (String × Json)} {count : Nat}

/-- Whether every table can be read. -/
def Readable (store : Store) : Prop := ∀ table, ∃ rows, store.tableRows table = .ok rows

/-- Whether every write is taken and every table can be read. -/
def Healthy (store : Store) : Prop := store.quota = none ∧ store.Readable

theorem Holds.healthy (h : store.Holds content) : store.Healthy :=
  ⟨h.takesWrites, fun table => ⟨content table, h.tableRows table⟩⟩

theorem Healthy.exists_holds (h : store.Healthy) : ∃ content, store.Holds content := by
  choose content hcontent using h.2
  refine ⟨content, h.1, fun table => ?_⟩
  have hrows := hcontent table
  unfold tableRows at hrows
  cases hstored : store.rows table.name with
  | error e =>
    rw [hstored] at hrows
    cases hrows
  | ok rows =>
    rw [hstored] at hrows
    cases hrows
    rfl

/-- A table that was written can be read when no row of it is too deep. -/
theorem readable_written (h : store.Holds content)
    (hsorted : ∀ row ∈ rows, (Json.object row).Sorted) :
    (store.written table rows).Readable ↔ ∀ row ∈ rows, depthFields row ≤ rowDepth := by
  have hself : (store.written table rows).tableRows table = _ :=
    congrArg (Except.mapError DatabaseError.store) rows_written_self
  rw [rowsOfText_textOfRows _ hsorted] at hself
  constructor
  · intro hreadable
    obtain ⟨read, hread⟩ := hreadable table
    by_contra hdeep
    rw [hself, if_neg hdeep] at hread
    cases hread
  · intro hdepth other
    by_cases hne : other = table
    · subst hne
      rw [hself, if_pos hdepth]
      exact ⟨_, rfl⟩
    · refine ⟨content other, ?_⟩
      rw [tableRows, rows_written_ne hne, h.rows]
      rfl

/-- One row among stored rows decides whether they can be read again. -/
theorem readable_written_row (h : store.Holds content) (hrow : (Json.object row).Sorted)
    (hmem : row ∈ rows) (hrows : ∀ other ∈ rows, other = row ∨ other ∈ content table) :
    (store.written table rows).Readable ↔ depthFields row ≤ rowDepth := by
  have hstored := h.storable table
  rw [readable_written h fun other hother => ?_]
  · refine ⟨fun hall => hall row hmem, fun hdepth other hother => ?_⟩
    rcases hrows other hother with rfl | hold
    · exact hdepth
    · exact (hstored other hold).depth
  · rcases hrows other hother with rfl | hold
    · exact hrow
    · exact (hstored other hold).sorted

theorem sorted_foldl_set (hrow : (Json.object row).Sorted) (h : ∀ field ∈ fields, field.2.Sorted) :
    (Json.object (fields.foldl (fun row field => Record.set field.1 field.2 row) row)).Sorted :=
  ⟨Record.ordered_foldl_set hrow.1, sortedFields_iff.mpr
    (Record.foldl_set (fun _ value => value.Sorted) (sortedFields_iff.mp hrow.2) h)⟩

theorem sorted_ofFields (h : ∀ field ∈ fields, field.2.Sorted) :
    (Json.object (Record.ofFields fields)).Sorted :=
  sorted_foldl_set ⟨List.Pairwise.nil, trivial⟩ h

/-- Among the fields of a stored row only those that are set can be too deep. -/
theorem depth_foldl_set (hrow : Storable row) :
    depthFields (fields.foldl (fun row field => Record.set field.1 field.2 row) row) ≤ rowDepth ↔
      depthFields (Record.ofFields fields) ≤ rowDepth := by
  simp only [depthFields_le_iff, Record.mem_foldl_set_iff hrow.ordered]
  constructor
  · exact fun h field hf => h field (.inl hf)
  · rintro h field (hf | ⟨hf, -⟩)
    · exact h field hf
    · exact (hrow.fields field hf).2

/-- What a write of a table leaves. -/
theorem written_of_ok (h : store.Holds content) {count' : Nat}
    (hrun : (do return (count', ← store.setTableRows table rows)) =
      (.ok (count, store') : Except DatabaseError (Nat × Store))) :
    count = count' ∧ store' = store.written table rows := by
  rw [setTableRows_healthy h.takesWrites] at hrun
  cases hrun
  exact ⟨rfl, rfl⟩

theorem insert_readable (h : store.Holds content) (hrow : (Json.object row).Sorted)
    {conflict : OnConflict} (hrun : store.insert table row conflict = .ok (count, store')) :
    store'.quota = none ∧ (store'.Readable ↔ count = 0 ∨ depthFields row ≤ rowDepth) := by
  have hwritten : ∀ {rows}, row ∈ rows → (∀ other ∈ rows, other = row ∨ other ∈ content table) →
      count = 1 ∧ store' = store.written table rows →
      store'.quota = none ∧ (store'.Readable ↔ count = 0 ∨ depthFields row ≤ rowDepth) := by
    rintro rows hmem hrows ⟨rfl, rfl⟩
    refine ⟨h.takesWrites, ?_⟩
    rw [readable_written_row h hrow hmem hrows]
    simp
  obtain ⟨rows, hrows, hrun⟩ := bind_eq_ok.mp hrun
  cases (h.tableRows table).symm.trans hrows
  split at hrun
  · exact hwritten (by simp) (by simp +contextual [or_comm]) (written_of_ok h hrun)
  obtain ⟨key, hkey, hrun⟩ := bind_eq_ok.mp hrun
  split at hrun
  · rename_i rows' hupserted
    rw [upserted_eq] at hupserted
    split_ifs at hupserted
    cases hupserted
    exact hwritten (mem_upsertRow_self ..) (fun _ => mem_of_mem_upsertRow) (written_of_ok h hrun)
  · cases hrun
    refine ⟨h.takesWrites, ?_⟩
    simp [h.healthy.2]

/-- A row that was assigned to is the only one that changed. -/
theorem mem_assignFirst {id : Json} {rows' : List Record}
    (h : assignFirst fields id rows = some rows') :
    ∃ old ∈ rows, ∃ row ∈ rows',
      row = fields.foldl (fun row field => Record.set field.1 field.2 row) old ∧
        ∀ other ∈ rows', other = row ∨ other ∈ rows := by
  induction rows generalizing rows' with
  | nil => cases h
  | cons first rest ih =>
    unfold assignFirst at h
    split_ifs at h
    · cases h
      refine ⟨first, List.mem_cons_self .., _, List.mem_cons_self .., rfl, fun other hother => ?_⟩
      exact (List.mem_cons.mp hother).imp_right (List.mem_cons_of_mem _)
    · obtain ⟨others, hothers, rfl⟩ := Option.map_eq_some_iff.mp h
      obtain ⟨old, hold, row, hrow, heq, hmem⟩ := ih hothers
      refine ⟨old, List.mem_cons_of_mem _ hold, row, List.mem_cons_of_mem _ hrow, heq,
        fun other hother => ?_⟩
      rcases List.mem_cons.mp hother with rfl | hother
      · exact .inr (List.mem_cons_self ..)
      · exact (hmem other hother).imp_right (List.mem_cons_of_mem _)

theorem update_readable (h : store.Holds content) (hfields : ∀ field ∈ fields, field.2.Sorted)
    {id : Json} (hrun : store.update table fields id = .ok (count, store')) :
    store'.quota = none ∧
      (store'.Readable ↔ count = 0 ∨ depthFields (Record.ofFields fields) ≤ rowDepth) := by
  obtain ⟨rows, hrows, hrun⟩ := bind_eq_ok.mp hrun
  cases (h.tableRows table).symm.trans hrows
  split at hrun
  · rename_i rows' hassigned
    obtain ⟨rfl, rfl⟩ := written_of_ok h hrun
    obtain ⟨old, hold, row, hrow, rfl, hmem⟩ := mem_assignFirst hassigned
    have hstorable := h.storable table old hold
    refine ⟨h.takesWrites, ?_⟩
    rw [readable_written_row h (sorted_foldl_set hstorable.sorted hfields) hrow hmem,
      depth_foldl_set hstorable]
    simp
  · cases hrun
    exact ⟨h.takesWrites, by simp [h.healthy.2]⟩

theorem delete_readable (h : store.Holds content) {filter : Option Predicate}
    (hrun : store.delete table filter = .ok (count, store')) : store'.Healthy := by
  obtain ⟨rows, hrows, hrun⟩ := bind_eq_ok.mp hrun
  cases (h.tableRows table).symm.trans hrows
  dsimp only at hrun
  split at hrun
  · cases hrun
    exact h.healthy
  · obtain ⟨rfl, rfl⟩ := written_of_ok h hrun
    refine (h.written fun row hrow => h.storable table row ?_).healthy
    exact (kept_sublist filter _).subset hrow

/-- A statement that ran leaves every table readable exactly when it touched no row or did not set
a column too deep. -/
theorem apply_readable (h : store.Holds content) {statement : Statement}
    (hvalues : ∀ v ∈ statement.values, v.Sorted)
    (hrun : store.apply statement = .ok (count, store')) :
    store'.quota = none ∧
      (store'.Readable ↔ count = 0 ∨ depthFields statement.fields ≤ rowDepth) := by
  cases statement with
  | insert table columns values conflict =>
    refine insert_readable h (sorted_ofFields fun field hf => ?_) hrun
    exact hvalues field.2 (List.of_mem_zip hf).2
  | update table assignments id =>
    refine update_readable h (fun field hf => ?_) hrun
    exact hvalues field.2 (List.mem_append_left _ (List.mem_map_of_mem hf))
  | delete table filter =>
    obtain ⟨hquota, hreadable⟩ := delete_readable h hrun
    exact ⟨hquota, by simp [hreadable, Statement.fields, depthFields]⟩
  | select s => cases hrun

end Store
end Planner

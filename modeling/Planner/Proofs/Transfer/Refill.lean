import Planner.Proofs.Store.Upsert
import Planner.Transfer

/-! The statements of a restoration, and what the tables hold when they have been run. -/
namespace Planner.Transfer

open Json Store Outcome

variable {table : Table} {rows stored : List Record} {row : Record} {store : Store}
  {content : Table → List Record} {data : Sections}

/-- The rows of a table with one restored: settings mind their key, other rows are appended. -/
def restoreRow (table : Table) (stored : List Record) (row : Record) : List Record :=
  if table = .settings then upsertRow (keyed table row) row stored else stored ++ [row]

theorem mem_of_mem_restoreRow {old : Record} (h : old ∈ restoreRow table stored row) :
    old = row ∨ old ∈ stored := by
  unfold restoreRow at h
  split_ifs at h
  · exact mem_of_mem_upsertRow h
  · rcases List.mem_append.mp h with h | h
    · exact .inr h
    · exact .inl (List.mem_singleton.mp h)

/-- The rows of a table after others were restored one by one: each time the whole table is
written, and read again for the next. -/
def refill (table : Table) (stored rows : List Record) : List Record :=
  rows.foldl (fun stored row => (restoreRow table stored row).map rereadFields) stored

/-- Rows whose doubles are read back are restored as they are. -/
theorem refill_readsBack (hstored : ∀ row ∈ stored, ReadsBack row)
    (hrows : ∀ row ∈ rows, ReadsBack row) :
    refill table stored rows = rows.foldl (restoreRow table) stored := by
  induction rows generalizing stored with
  | nil => rfl
  | cons row rest ih =>
    obtain ⟨hrow, hrest⟩ := List.forall_mem_cons.mp hrows
    have hnext : ∀ old ∈ restoreRow table stored row, ReadsBack old := by
      intro old hold
      rcases mem_of_mem_restoreRow hold with rfl | hold
      · exact hrow
      · exact hstored old hold
    have hsame : (restoreRow table stored row).map rereadFields = restoreRow table stored row :=
      (List.map_congr_left (g := id) fun old hold => (hnext old hold).reread_eq).trans
        (List.map_id _)
    have hstep := ih hnext hrest
    unfold refill at hstep ⊢
    rw [List.foldl_cons, hsame, hstep, List.foldl_cons]

/-- A row of a data table is read anew once for itself and once for every row behind it. -/
theorem refill_data (h : table ≠ .settings) (stored rows : List Record) :
    refill table stored rows = stored.map rereadFields^[rows.length] ++
      rows.mapIdx fun index row => rereadFields^[rows.length - index] row := by
  induction rows generalizing stored with
  | nil => simp [refill]
  | cons row rest ih =>
    have hstep := ih ((stored ++ [row]).map rereadFields)
    unfold refill at hstep ⊢
    rw [List.foldl_cons, restoreRow, if_neg h, hstep, List.mapIdx_cons]
    simp [Function.iterate_succ]

def onConflict (table : Table) : OnConflict := if table = .settings then .replace else .append

/-- The statement that restores a row. -/
def insertion (table : Table) (row : Record) : Statement :=
  .insertFields table row (onConflict table)

theorem insertions_eq_ok (h : ∀ row ∈ rows, HasKey table row) (index : Nat) :
    insertions table index rows = .ok (rows.map (insertion table)) := by
  induction rows generalizing index with
  | nil => rfl
  | cons row rest ih =>
    obtain ⟨hrow, hrest⟩ := List.forall_mem_cons.mp h
    have hfind : table.naturalKey.find? (!row.has ·) = none := by
      rw [List.find?_eq_none]
      intro column hc
      simp [hrow column hc]
    simp only [insertions, hfind, ih hrest, bind, Except.bind]
    rfl

theorem insertions_eq_error (h : ∃ row ∈ rows, ¬ HasKey table row) (index : Nat) :
    ∃ index' column, insertions table index rows = .error (.rowWithoutKey table index' column) := by
  induction rows generalizing index with
  | nil => simp at h
  | cons row rest ih =>
    unfold insertions
    cases hfind : table.naturalKey.find? (!row.has ·) with
    | some column => exact ⟨index, column, rfl⟩
    | none =>
      have hrow : HasKey table row := fun column hc => by
        simpa using List.find?_eq_none.mp hfind column hc
      have hrest : ∃ row ∈ rest, ¬ HasKey table row := by
        obtain ⟨bad, hbad, hkey⟩ := h
        rcases List.mem_cons.mp hbad with rfl | hbad
        · exact absurd hrow hkey
        · exact ⟨bad, hbad, hkey⟩
      obtain ⟨index', column, herror⟩ := ih hrest (index + 1)
      refine ⟨index', column, ?_⟩
      simp only [herror, bind, Except.bind]

/-- The rows that a document has for a table. -/
def rowsOf (data : Sections) (table : Table) : List Record := (data.rows? table).getD []

/-- Whether every row of a document has the natural key of its table. -/
def Keyed (data : Sections) : Prop := ∀ table, ∀ row ∈ rowsOf data table, HasKey table row

theorem refillings_eq_ok (h : Keyed data) (tables : List Table) :
    refillings data tables =
      .ok (tables.flatMap fun table => (rowsOf data table).map (insertion table)) := by
  induction tables with
  | nil => rfl
  | cons table rest ih =>
    have hrows := insertions_eq_ok (h table) 0
    unfold rowsOf at hrows ih
    simp only [refillings, ih, List.flatMap_cons, rowsOf]
    cases hdata : data.rows? table with
    | none => rfl
    | some rows =>
      simp only [hdata, Option.getD_some] at hrows
      simp only [hrows, bind, Except.bind]
      rfl

theorem refillings_eq_error {tables : List Table}
    (h : ∃ table ∈ tables, ∃ row ∈ rowsOf data table, ¬ HasKey table row) :
    ∃ table index column, refillings data tables = .error (.rowWithoutKey table index column) := by
  induction tables with
  | nil => simp at h
  | cons table rest ih =>
    by_cases hfirst : ∃ row ∈ rowsOf data table, ¬ HasKey table row
    · obtain ⟨index, column, herror⟩ := insertions_eq_error hfirst 0
      refine ⟨table, index, column, ?_⟩
      unfold rowsOf at hfirst herror
      cases hdata : data.rows? table with
      | none => simp [hdata] at hfirst
      | some rows =>
        simp only [hdata, Option.getD_some] at herror
        simp only [refillings, hdata, herror, bind, Except.bind]
    · have hrest : ∃ table ∈ rest, ∃ row ∈ rowsOf data table, ¬ HasKey table row := by
        obtain ⟨bad, hbad, hrow⟩ := h
        rcases List.mem_cons.mp hbad with rfl | hbad
        · exact absurd hrow hfirst
        · exact ⟨bad, hbad, hrow⟩
      have hkeys : ∀ row ∈ rowsOf data table, HasKey table row := by simpa using hfirst
      have hrows := insertions_eq_ok hkeys 0
      obtain ⟨table', index, column, herror⟩ := ih hrest
      refine ⟨table', index, column, ?_⟩
      unfold rowsOf at hrows
      simp only [refillings, herror]
      cases hdata : data.rows? table with
      | none => rfl
      | some rows =>
        simp only [hdata, Option.getD_some] at hrows
        simp only [hrows]
        rfl

theorem storable_restoreRow (hrow : Storable row) (h : ∀ old ∈ stored, Storable old) :
    ∀ old ∈ restoreRow table stored row, Storable old := by
  intro old hold
  rcases mem_of_mem_restoreRow hold with rfl | hold
  · exact hrow
  · exact h old hold

theorem apply_insertFields {fields : Record} {onConflict : OnConflict}
    (h : Record.Ordered fields) :
    store.apply (.insertFields table fields onConflict) = store.insert table fields onConflict := by
  simp only [Statement.insertFields, Store.apply, List.zip_map', List.map_id',
    Record.ofFields_of_ordered h]

/-- A row with its natural key is restored into a store that takes every write. -/
theorem apply_insertion (h : store.Holds content) (hrow : Storable row) (hkey : HasKey table row) :
    ∃ store', store.apply (insertion table row) = .ok (1, store') ∧
      store'.Holds (Function.update content table
        ((restoreRow table (content table) row).map rereadFields)) := by
  refine ⟨_, ?_, h.written (storable_restoreRow hrow (h.storable table))⟩
  rw [insertion, apply_insertFields hrow.ordered, Store.insert, h.tableRows]
  by_cases hsettings : table = .settings
  · simp only [onConflict, restoreRow, if_pos hsettings, bind, Except.bind, reduceCtorEq, if_false,
      keyOf_eq_keyed hkey, upserted_eq, and_false, setTableRows_healthy h.takesWrites]
    rfl
  · simp only [onConflict, restoreRow, if_neg hsettings, bind, Except.bind, if_true,
      setTableRows_healthy h.takesWrites]
    rfl

/-- A table is cleared in a store that takes every write. -/
theorem apply_clearing (h : store.Holds content) (table : Table) :
    ∃ count store', store.apply (.delete table none) = .ok (count, store') ∧
      store'.Holds (Function.update content table []) := by
  simp only [Store.apply, Store.delete, h.tableRows, kept, bind, Except.bind, List.length_nil,
    Nat.sub_zero, setTableRows_healthy h.takesWrites]
  split_ifs with hempty
  · refine ⟨_, _, rfl, ?_⟩
    rw [← List.length_eq_zero_iff.mp hempty, Function.update_eq_self]
    exact h
  · exact ⟨_, _, rfl, h.written (List.forall_mem_nil _)⟩

/-- A batch of statements takes every store that holds one content to one that holds another. -/
def Turns (statements : List Statement) (content content' : Table → List Record) : Prop :=
  ∀ store : Store, store.Holds content → ∀ index touched more, ∃ touched' store',
    applyFrom index touched (statements ++ more) store =
      applyFrom (index + statements.length) touched' more store' ∧ store'.Holds content'

namespace Turns

variable {content' content'' : Table → List Record} {statements statements' : List Statement}

theorem nil (content : Table → List Record) : Turns [] content content :=
  fun store h _ touched _ => ⟨touched, store, rfl, h⟩

theorem cons {statement : Statement}
    (hfirst : ∀ store : Store, store.Holds content → ∃ count store',
      store.apply statement = .ok (count, store') ∧ store'.Holds content')
    (hrest : Turns statements content' content'') :
    Turns (statement :: statements) content content'' := by
  intro store h index touched more
  obtain ⟨count, store₁, happly, h₁⟩ := hfirst store h
  obtain ⟨touched', store₂, hrun, h₂⟩ := hrest store₁ h₁ (index + 1) (touched + count) more
  refine ⟨touched', store₂, ?_, h₂⟩
  simp only [List.cons_append, applyFrom, happly, hrun, List.length_cons]
  congr 1
  omega

theorem append (hfirst : Turns statements content content')
    (hrest : Turns statements' content' content'') :
    Turns (statements ++ statements') content content'' := by
  intro store h index touched more
  obtain ⟨touched₁, store₁, hrun₁, h₁⟩ := hfirst store h index touched (statements' ++ more)
  obtain ⟨touched₂, store₂, hrun₂, h₂⟩ := hrest store₁ h₁ _ touched₁ more
  refine ⟨touched₂, store₂, ?_, h₂⟩
  rw [List.append_assoc, hrun₁, hrun₂, List.length_append, Nat.add_assoc]

theorem applyBatch (h : Turns statements content content') (hs : store.Holds content) :
    ∃ count store', store.applyBatch statements = (.ok count, store') ∧ store'.Holds content' := by
  obtain ⟨count, store', hrun, hs'⟩ := h store hs 0 0 []
  refine ⟨count, store', ?_, hs'⟩
  rw [List.append_nil] at hrun
  rw [Store.applyBatch, hrun]
  rfl

end Turns

theorem turns_clearings (tables : List Table) (content : Table → List Record) :
    Turns (tables.map (.delete · none)) content
      (fun table => if table ∈ tables then [] else content table) := by
  induction tables generalizing content with
  | nil => simpa using Turns.nil content
  | cons table rest ih =>
    have hcontent : (fun other => if other ∈ table :: rest then [] else content other) =
        fun other => if other ∈ rest then [] else Function.update content table [] other := by
      funext other
      by_cases hother : other = table <;> simp [hother]
    rw [hcontent]
    exact Turns.cons (fun store h => apply_clearing h table) (ih _)

theorem turns_insertions (hrows : ∀ row ∈ rows, Storable row ∧ HasKey table row)
    (content : Table → List Record) :
    Turns (rows.map (insertion table)) content
      (Function.update content table (refill table (content table) rows)) := by
  induction rows generalizing content with
  | nil => simpa [refill] using Turns.nil content
  | cons row rest ih =>
    obtain ⟨⟨hstorable, hkey⟩, hrest⟩ := List.forall_mem_cons.mp hrows
    have hstep := ih hrest (Function.update content table
      ((restoreRow table (content table) row).map rereadFields))
    rw [Function.update_self, Function.update_idem] at hstep
    refine Turns.cons (fun store h => ?_) hstep
    obtain ⟨store', happly, h'⟩ := apply_insertion h hstorable hkey
    exact ⟨1, store', happly, h'⟩

theorem turns_refillings (hkeyed : Keyed data)
    (hstorable : ∀ table, ∀ row ∈ rowsOf data table, Storable row) {tables : List Table}
    (hnodup : tables.Nodup) (content : Table → List Record) :
    Turns (tables.flatMap fun table => (rowsOf data table).map (insertion table)) content
      (fun table => if table ∈ tables then refill table (content table) (rowsOf data table)
        else content table) := by
  induction tables generalizing content with
  | nil => simpa using Turns.nil content
  | cons table rest ih =>
    obtain ⟨hnot, hrest⟩ := List.nodup_cons.mp hnodup
    have hrows : ∀ row ∈ rowsOf data table, Storable row ∧ HasKey table row :=
      fun row hrow => ⟨hstorable table row hrow, hkeyed table row hrow⟩
    have hfirst := turns_insertions hrows content
    have hcontent : (fun other => if other ∈ table :: rest
          then refill other (content other) (rowsOf data other) else content other) =
        fun other => if other ∈ rest
          then refill other (Function.update content table
            (refill table (content table) (rowsOf data table)) other) (rowsOf data other)
          else Function.update content table
            (refill table (content table) (rowsOf data table)) other := by
      funext other
      by_cases hother : other = table
      · subst hother
        simp [hnot]
      · simp [hother]
    rw [hcontent, List.flatMap_cons]
    exact hfirst.append (ih hrest _)

end Planner.Transfer

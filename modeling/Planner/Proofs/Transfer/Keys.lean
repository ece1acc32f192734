import Planner.Proofs.Store.Actions
import Planner.Proofs.Store.Keys
import Planner.Proofs.Transfer.Restore

/-! Natural keys while a document is restored: what it takes that no two rows of a table come to have
the same. -/
namespace Planner

namespace Store

open Json Outcome

variable {store store' : Store} {table other : Table} {rows : List Record} {count : Nat}
  {statement : Statement} {fields : List (String × Json)}

/-- A statement leaves the rows of other tables. -/
theorem tableRows_apply_ne (hrun : store.apply statement = .ok (count, store'))
    (hother : other ≠ statement.table) : store'.tableRows other = store.tableRows other := by
  simp only [tableRows, Store.rows, text?_apply_ne hrun hother]

/-- The rows that are read when a row was appended, where they can be read. -/
theorem tableRows_append (h : KeysUnique store) (hsorted : ∀ field ∈ fields, field.2.Sorted)
    (hrun : store.apply (.insertFields table fields .append) = .ok (count, store'))
    (hrows : store'.tableRows table = .ok rows) :
    ∃ stored, store.tableRows table = .ok stored ∧
      rows = (stored ++ [Record.ofFields fields]).map rereadFields := by
  obtain ⟨stored, written, hstored, heffect, hset⟩ := apply_cases hrun
  rw [effect_insertFields, if_pos rfl] at heffect
  cases heffect
  dsimp only at hset
  rw [setTableRows_healthy h.takesWrites] at hset
  cases hset
  have hall : ∀ row ∈ stored ++ [Record.ofFields fields], (Json.object row).Sorted :=
    List.forall_mem_append.mpr ⟨sorted_of_tableRows hstored,
      List.forall_mem_singleton.mpr (sorted_ofFields hsorted)⟩
  have hread := mapError_eq_ok.mp hrows
  rw [Statement.insertFields, Statement.table, rows_written_self, rowsOfText_textOfRows _ hall]
    at hread
  split_ifs at hread
  cases hread
  exact ⟨stored, hstored, rfl⟩

theorem tableRows_clear (h : KeysUnique store)
    (hrun : store.apply (.delete table none) = .ok (count, store')) :
    store'.tableRows table = .ok [] := by
  obtain ⟨rows, hrows, hrun⟩ := bind_eq_ok.mp hrun
  dsimp only at hrun
  split at hrun
  · rename_i hempty
    have hnil : rows.length = 0 := hempty
    cases hrun
    rw [hrows, List.length_eq_zero_iff.mp hnil]
  · rw [setTableRows_healthy h.takesWrites] at hrun
    cases hrun
    rw [kept, tableRows, rows_written_self, rowsOfText_storable _ (by simp)]
    rfl

end Store

namespace Transfer

open Json Store Outcome

variable {store store' : Store} {table : Table} {rows : List Record} {data : Sections}
  {index touched count : Nat} {pending : List (Table × Record)}

/-- Whether the rows of a document have keys that are read back as themselves, and in each table no
two the same. -/
def KeysApart (data : Sections) : Prop :=
  ∀ table, KeysDistinct table (rowsOf data table) ∧
    ∀ row ∈ rowsOf data table, SteadyKey table row

instance (data : Sections) : Decidable (KeysApart data) :=
  decidable_of_iff (∀ table ∈ Table.all, KeysDistinct table (rowsOf data table) ∧
    ∀ row ∈ rowsOf data table, SteadyKey table row) Table.forall_mem_all

/-- No row that is still to be appended has the key of a stored one. -/
def Awaits (store : Store) (pending : List (Table × Record)) : Prop :=
  ∀ table rows, store.tableRows table = .ok rows → table ≠ .settings →
    ∀ old ∈ rows, ∀ row, (table, row) ∈ pending → ¬ SameKey table old row

/-- What a row has to be to be restored. -/
structure Pending (table : Table) (row : Record) : Prop where
  sorted : (Json.object row).Sorted
  hasKey : HasKey table row
  steady : SteadyKey table row

theorem Pending.ofFields {row : Record} (h : Pending table row) : Record.ofFields row = row :=
  Record.ofFields_of_ordered h.sorted.1

theorem Pending.fields {row : Record} (h : Pending table row) : ∀ field ∈ row, field.2.Sorted :=
  sortedFields_iff.mp h.sorted.2

/-- A restored row keeps the keys unique. -/
theorem keysUnique_insertion (h : KeysUnique store) {row : Record} (hrow : Pending table row)
    (hnew : ∀ rows, store.tableRows table = .ok rows → table ≠ .settings →
      ∀ old ∈ rows, ¬ SameKey table old row)
    (hrun : store.apply (insertion table row) = .ok (count, store')) : KeysUnique store' := by
  unfold insertion onConflict at hrun
  split_ifs at hrun with hsettings
  · exact h.replace (hrow.ofFields.symm ▸ hrow.steady) hrow.fields hrun
  · refine h.append (hrow.ofFields.symm ▸ hrow.hasKey) (hrow.ofFields.symm ▸ hrow.steady)
      hrow.fields (fun rows hrows => ?_) hrun
    rw [hrow.ofFields]
    exact hnew rows hrows hsettings

/-- What is appended keeps the others waiting. -/
theorem awaits_insertion (h : KeysUnique store) {row : Record} (hrow : Pending table row)
    (hawaits : Awaits store ((table, row) :: pending))
    (hapart : ∀ p ∈ pending, table = p.1 → ¬ SameKey table row p.2)
    (hrun : store.apply (insertion table row) = .ok (count, store')) : Awaits store' pending := by
  intro other rows hrows hdata old hold next hnext hsame
  by_cases hother : other = table
  · subst hother
    rw [insertion, onConflict, if_neg hdata] at hrun
    obtain ⟨stored, hstored, rfl⟩ := tableRows_append h hrow.fields hrun hrows
    rw [hrow.ofFields] at hold
    obtain ⟨before, hbefore, rfl⟩ := List.mem_map.mp hold
    have hkeeps : ∀ record : Record, KeepsKey other record record := fun _ _ _ => rfl
    rcases List.mem_append.mp hbefore with hbefore | hbefore
    · have hsteady := (h.unique other stored hstored).steady before hbefore
      exact hawaits other stored hstored hdata before hbefore next (List.mem_cons_of_mem _ hnext)
        ((keepsKey_reread hsteady).sameKey (hkeeps next) hsame)
    · cases List.mem_singleton.mp hbefore
      exact hapart _ hnext rfl ((keepsKey_reread hrow.steady).sameKey (hkeeps next) hsame)
  · rw [tableRows_apply_ne hrun hother] at hrows
    exact hawaits other rows hrows hdata old hold next (List.mem_cons_of_mem _ hnext) hsame

theorem keysUnique_insertions (h : KeysUnique store) (hpending : ∀ p ∈ pending, Pending p.1 p.2)
    (hapart : pending.Pairwise fun p q => p.1 = q.1 → ¬ SameKey p.1 p.2 q.2)
    (hawaits : Awaits store pending) :
    KeysUnique (store.applyFrom index touched (pending.map fun p => insertion p.1 p.2)).2 := by
  induction pending generalizing store index touched with
  | nil => exact h
  | cons first rest ih =>
    obtain ⟨table, row⟩ := first
    obtain ⟨hrow, hrest⟩ := List.forall_mem_cons.mp hpending
    obtain ⟨hfirst, hapart⟩ := List.pairwise_cons.mp hapart
    rw [List.map_cons, applyFrom]
    cases hrun : store.apply (insertion table row) with
    | error e => exact h
    | ok result =>
      obtain ⟨count, store'⟩ := result
      have hnext : KeysUnique store' := keysUnique_insertion h hrow
        (fun rows hrows hdata old hold =>
          hawaits table rows hrows hdata old hold row (List.mem_cons_self ..)) hrun
      exact ih hnext hrest hapart (awaits_insertion h hrow hawaits hfirst hrun)

/-- Tables are emptied one by one, and what follows finds them all empty. -/
theorem keysUnique_clearings (done : List Table) {tables : List Table} {more : List Statement}
    (h : KeysUnique store) (hdone : ∀ table ∈ done, store.tableRows table = .ok [])
    (hmore : ∀ store' index touched, KeysUnique store' →
      (∀ table ∈ done ++ tables, store'.tableRows table = .ok []) →
        KeysUnique (store'.applyFrom index touched more).2) :
    KeysUnique
      (store.applyFrom index touched (tables.map (fun table => .delete table none) ++ more)).2 := by
  induction tables generalizing store index touched done with
  | nil => exact hmore store index touched h (by simpa using hdone)
  | cons table rest ih =>
    rw [List.map_cons, List.cons_append, applyFrom]
    cases hrun : store.apply (.delete table none) with
    | error e => exact h
    | ok result =>
      obtain ⟨count, store'⟩ := result
      have hcleared : ∀ other ∈ done ++ [table], store'.tableRows other = .ok [] := by
        intro other hother
        by_cases hne : other = table
        · exact hne ▸ tableRows_clear h hrun
        · rw [tableRows_apply_ne hrun hne]
          rcases List.mem_append.mp hother with hother | hother
          · exact hdone other hother
          · exact absurd (List.mem_singleton.mp hother) hne
      refine ih _ (h.delete hrun) hcleared fun store' index touched h' hempty => ?_
      refine hmore store' index touched h' fun other hother => hempty other ?_
      simpa using hother

/-- The rows of a document with their tables, in the order in which they are restored. -/
def pendingRows (data : Sections) : List (Table × Record) :=
  Table.all.flatMap fun table => (rowsOf data table).map (table, ·)

theorem mem_pendingRows {p : Table × Record} :
    p ∈ pendingRows data ↔ p.2 ∈ rowsOf data p.1 := by
  obtain ⟨table, row⟩ := p
  simp only [pendingRows, List.mem_flatMap, List.mem_map, Prod.mk.injEq]
  constructor
  · rintro ⟨other, -, record, hrecord, rfl, rfl⟩
    exact hrecord
  · exact fun hrow => ⟨table, Table.mem_all table, row, hrow, rfl, rfl⟩

theorem pendingRows_apart (h : KeysApart data) :
    (pendingRows data).Pairwise fun p q => p.1 = q.1 → ¬ SameKey p.1 p.2 q.2 := by
  refine List.pairwise_flatMap.mpr ⟨fun table _ => List.pairwise_map.mpr ?_, ?_⟩
  · refine (h table).1.imp fun hne => ?_
    exact fun _ => hne
  · have hnodup : Table.all.Nodup := by decide
    refine hnodup.imp fun hne p hp q hq => ?_
    obtain ⟨-, -, rfl⟩ := List.mem_map.mp hp
    obtain ⟨-, -, rfl⟩ := List.mem_map.mp hq
    exact fun hsame => absurd hsame hne

/-- A document is restored without two rows of a table coming to have the same natural key. -/
theorem keysUnique_restore {w : Workspace} (h : KeysUnique w.store) (document : Document)
    (hsorted : ∀ table, ∀ row ∈ rowsOf document.data table, (Json.object row).Sorted)
    (hapart : Keyed document.data → KeysApart document.data) :
    KeysUnique (stateAfter (restore document w)).store := by
  by_cases hkeyed : Keyed document.data
  · have hpending : ∀ p ∈ pendingRows document.data, Pending p.1 p.2 := fun p hp =>
      have hrow := mem_pendingRows.mp hp
      ⟨hsorted p.1 p.2 hrow, hkeyed p.1 p.2 hrow, (hapart hkeyed p.1).2 p.2 hrow⟩
    have hinsertions : refillings document.data Table.all =
        .ok ((pendingRows document.data).map fun p => insertion p.1 p.2) := by
      rw [refillings_eq_ok hkeyed, pendingRows, List.map_flatMap]
      simp only [List.map_map]
      rfl
    have hstore : (stateAfter (restore document w)).store = (w.store.applyBatch
        (clearings ++ (pendingRows document.data).map fun p => insertion p.1 p.2)).2 := by
      unfold restore
      rw [hinsertions]
      dsimp only
      generalize w.store.applyBatch _ = outcome
      obtain ⟨result, store⟩ := outcome
      cases result <;> rfl
    rw [hstore]
    refine keysUnique_clearings [] h (by simp) fun store' index touched h' hempty => ?_
    refine keysUnique_insertions h' hpending (pendingRows_apart (hapart hkeyed)) ?_
    -- every table that rows are appended to is empty
    intro table rows hrows hdata old hold
    have hcleared := hempty table (List.mem_filter.mpr ⟨Table.mem_all table, by simpa using hdata⟩)
    cases hcleared.symm.trans hrows
    cases hold
  · obtain ⟨table, index, column, herror⟩ := restore_eq_error document hkeyed w
    rw [herror]
    exact h

theorem keysUnique_restoreText {w : Workspace} (h : KeysUnique w.store) (text : String)
    (hapart : ∀ document, documentOfText text = .ok document →
      Keyed document.data → KeysApart document.data) :
    KeysUnique (stateAfter (restoreText text w)).store := by
  unfold restoreText
  cases hdocument : documentOfText text with
  | error fault => exact h
  | ok document =>
    refine keysUnique_restore h document (fun table row hrow => ?_) (hapart document hdocument)
    exact (storable_of_documentOfText hdocument table row hrow).sorted

end Transfer
end Planner

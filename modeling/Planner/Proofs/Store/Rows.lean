import Planner.Database
import Planner.Proofs.Json.ReadBack
import Planner.Proofs.Json.Soundness

/-! Stored tables: what is written under one name, and what is read under each name then. -/
namespace Planner

theorem Table.name_injective : Function.Injective Table.name := by
  intro a b
  cases a <;> cases b <;> decide

theorem Table.mem_all (table : Table) : table ∈ all := by
  cases table <;> decide

theorem Table.forall_mem_all {p : Table → Prop} : (∀ table ∈ all, p table) ↔ ∀ table, p table :=
  ⟨fun h table => h table table.mem_all, fun h table _ => h table⟩

namespace Store

open Json Outcome

variable {rows : List Record} {store : Store} {table other : Table}

/-- How deep the fields of a stored row may be: the row and the list of rows stand around them. -/
def rowDepth : Nat := depthLimit - 2

/-- A row that is read back when it is stored. -/
def Storable (row : Record) : Prop := RecordFits rowDepth row

theorem recordsFrom_objects (name : String) (index : Nat) (rows : List Record) :
    recordsFrom name index (rows.map .object) = .ok rows := by
  induction rows generalizing index with
  | nil => rfl
  | cons row rest ih =>
    simp only [List.map_cons, recordsFrom, ih, bind, Except.bind]
    rfl

theorem eq_objects_of_recordsFrom {name : String} {index : Nat} {values : List Json}
    (h : recordsFrom name index values = .ok rows) : values = rows.map .object := by
  induction values generalizing index rows with
  | nil =>
    cases h
    rfl
  | cons value rest ih =>
    cases value with
    | object fields =>
      obtain ⟨others, hothers, h⟩ := bind_eq_ok.mp h
      cases h
      rw [ih hothers, List.map_cons]
    | _ => cases h

/-- Rows that were read are storable again. -/
theorem storable_of_rowsOfText {name text : String} (h : rowsOfText name text = .ok rows) :
    ∀ row ∈ rows, Storable row := by
  unfold rowsOfText at h
  split at h
  · rename_i values hvalues
    intro row hrow
    rw [eq_objects_of_recordsFrom h] at hvalues
    exact fits_object_iff.mp (readList_fits hvalues _ (List.mem_map_of_mem hrow))
  · cases h

theorem storable_of_rows {name : String} (h : store.rows name = .ok rows) :
    ∀ row ∈ rows, Storable row := by
  unfold Store.rows at h
  split at h
  · cases h
    simp
  · exact storable_of_rowsOfText h

/-- The text of rows in order is read back exactly when none of them is too deep. -/
theorem rowsOfText_textOfRows (name : String) (h : ∀ row ∈ rows, (Json.object row).Sorted) :
    rowsOfText name (textOfRows rows) =
      if ∀ row ∈ rows, depthFields row ≤ rowDepth then .ok (rows.map rereadFields)
      else .error (.notJson name .tooDeep) := by
  have hsorted : SortedList (rows.map .object) :=
    sortedList_iff.mpr (List.forall_mem_map.mpr h)
  have hdepth : depthList (rows.map .object) ≤ depthLimit - 1 ↔
      ∀ row ∈ rows, depthFields row ≤ rowDepth := by
    simp only [depthList_le_iff, List.forall_mem_map, Json.depth]
    exact forall₂_congr fun _ _ => Nat.succ_le_succ_iff
  have hmap : rereadList (rows.map .object) = (rows.map rereadFields).map .object := by
    rw [rereadList_eq_map, List.map_map, List.map_map]
    rfl
  unfold rowsOfText textOfRows
  rw [readList_toText hsorted]
  simp only [hdepth]
  split_ifs
  · simp only [hmap, recordsFrom_objects]
  · rfl

theorem rowsOfText_storable (name : String) (h : ∀ row ∈ rows, Storable row) :
    rowsOfText name (textOfRows rows) = .ok (rows.map rereadFields) := by
  rw [rowsOfText_textOfRows name fun row hrow => (h row hrow).sorted, if_pos]
  exact fun row hrow => (h row hrow).depth

theorem lookup_putText_self (key text : String) (texts : List (String × String)) :
    (putText key text texts).lookup key = some text := by
  induction texts with
  | nil => simp [putText]
  | cons head rest ih =>
    obtain ⟨k, old⟩ := head
    unfold putText
    split_ifs with h
    · simp
    · simp [List.lookup_cons, beq_false_of_ne (Ne.symm h), ih]

theorem lookup_putText_ne {key other : String} (h : other ≠ key) (text : String)
    (texts : List (String × String)) : (putText key text texts).lookup other = texts.lookup other := by
  induction texts with
  | nil => simp [putText, List.lookup_cons, beq_false_of_ne h]
  | cons head rest ih =>
    obtain ⟨k, old⟩ := head
    unfold putText
    split_ifs with hk
    · subst hk
      simp [List.lookup_cons, beq_false_of_ne h]
    · simp only [List.lookup_cons, ih]

/-- The store after a table was written. -/
def written (table : Table) (rows : List Record) (store : Store) : Store :=
  { store with texts := putText table.name (textOfRows rows) store.texts }

theorem rows_written_self : (store.written table rows).rows table.name =
    rowsOfText table.name (textOfRows rows) := by
  simp only [Store.rows, text?, written, lookup_putText_self]

theorem rows_written_ne (h : other ≠ table) :
    (store.written table rows).rows other.name = store.rows other.name := by
  simp only [Store.rows, text?, written, lookup_putText_ne (Table.name_injective.ne h)]

theorem kept_sublist (filter : Option Predicate) (rows : List Record) :
    (kept filter rows).Sublist rows := by
  cases filter with
  | none => exact List.nil_sublist rows
  | some predicate => exact List.filter_sublist

theorem setTableRows_healthy (h : store.quota = none) :
    store.setTableRows table rows = .ok (store.written table rows) := by
  simp [setTableRows, setRows, put, h, written, Except.mapError]

/-- What a store that takes every write holds in each of its tables. -/
structure Holds (store : Store) (content : Table → List Record) : Prop where
  takesWrites : store.quota = none
  rows : ∀ table : Table, store.rows table.name = .ok (content table)

namespace Holds

variable {content : Table → List Record}

theorem tableRows (h : store.Holds content) (table : Table) :
    store.tableRows table = .ok (content table) := by
  rw [Store.tableRows, h.rows]
  rfl

theorem query (h : store.Holds content) (select : Select) :
    store.query select = .ok (select.evaluate (content select.table)) := by
  rw [Store.query, h.tableRows]
  rfl

theorem queryOne (h : store.Holds content) (select : Select) :
    store.queryOne select = .ok (select.evaluate (content select.table)).head? := by
  rw [Store.queryOne, h.query]
  rfl

theorem storable (h : store.Holds content) (table : Table) : ∀ row ∈ content table, Storable row :=
  storable_of_rows (h.rows table)

/-- Storable rows that are written are held, with their doubles read anew. -/
theorem written (h : store.Holds content) (hrows : ∀ row ∈ rows, Storable row) :
    (store.written table rows).Holds
      (Function.update content table (rows.map rereadFields)) where
  takesWrites := h.takesWrites
  rows other := by
    by_cases hne : other = table
    · subst hne
      rw [rows_written_self, rowsOfText_storable _ hrows, Function.update_self]
    · rw [rows_written_ne hne, h.rows, Function.update_of_ne hne]

end Holds

end Store
end Planner

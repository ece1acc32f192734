import Planner.Proofs.Outcome
import Planner.Proofs.Selection
import Planner.Store.Entities

/-! A listing with a condition against the listing without it: the same rows in the same order, but for
those that do not match. -/
namespace Planner

open Outcome

/-- A row with a text in a column, as a condition says it. -/
theorem Predicate.holds_hasText {column text : String} {row : Record} :
    (hasText column text).holds row = true ↔ row.get? column = some (.text text) := by
  unfold hasText holds equalHolds
  cases row.get? column <;> simp [Json.same_text_iff]

/-- A condition leaves those rows of a selection that match. -/
theorem Select.evaluate_filtered {select : Select} (hfilter : select.filter = none)
    (hdistinct : select.distinct = none) (predicate : Predicate) (rows : List Record) :
    (select.filtered predicate).evaluate rows = (select.evaluate rows).filter (predicate.holds ·) := by
  simp only [evaluate, filtered, matching, sorted, hfilter, hdistinct]
  cases select.order with
  | none => rfl
  | some order => exact order.sort_filter _ rows

/-- Without a projection the rows that match are found, in whatever order. -/
theorem Select.mem_evaluate_iff {select : Select} (hdistinct : select.distinct = none)
    {rows : List Record} {row : Record} : row ∈ select.evaluate rows ↔
      row ∈ rows ∧ ∀ predicate ∈ select.filter, predicate.holds row = true := by
  have hsorted : row ∈ select.sorted (select.matching rows) ↔ row ∈ select.matching rows := by
    unfold sorted
    split
    · exact List.mem_mergeSort
    · rfl
  simp only [evaluate, hdistinct, hsorted]
  unfold matching
  split <;> rename_i hfilter <;> simp [hfilter, List.mem_filter]

theorem Select.mem_of_mem_evaluate {select : Select} (hdistinct : select.distinct = none)
    {rows : List Record} {row : Record} (h : row ∈ select.evaluate rows) : row ∈ rows :=
  ((mem_evaluate_iff hdistinct).mp h).1

namespace Store

variable {α : Type} {store : Store} {all : List α} {rows : List Record}
  {predicate : Predicate} {read : Record → Except DatabaseError α}

/-- Where nothing is ordered or projected, the first row that matches is found. -/
theorem queryOne_of_rows (select : Select) (hfilter : select.filter = some predicate)
    (horder : select.order = none) (hdistinct : select.distinct = none)
    (hrows : store.tableRows select.table = .ok rows) :
    store.queryOne select = .ok (rows.find? (predicate.holds ·)) := by
  have hselected : select.evaluate rows = rows.filter (predicate.holds ·) := by
    simp only [Select.evaluate, Select.matching, Select.sorted, hfilter, horder, hdistinct]
  rw [← List.head?_filter, ← hselected]
  exact bind_eq_ok.mpr ⟨_, bind_eq_ok.mpr ⟨rows, hrows, rfl⟩, rfl⟩

theorem entity?_of_rows {read : Json → Except Json.Fault α} (select : Select)
    (hfilter : select.filter = some predicate) (horder : select.order = none)
    (hdistinct : select.distinct = none) (hrows : store.tableRows select.table = .ok rows) :
    store.entity? read select = match rows.find? (predicate.holds ·) with
      | some row => (decodeRow select.table read row).map some
      | none => .ok none := by
  unfold entity?
  rw [queryOne_of_rows select hfilter horder hdistinct hrows]
  cases rows.find? (predicate.holds ·) with
  | none => rfl
  | some row => cases decodeRow select.table read row <;> rfl

/-- The selected rows, each read by itself. -/
def readEach (read : Record → Except DatabaseError α) (select : Select) (store : Store) :
    Except DatabaseError (List α) := do
  (← store.query select).mapM read

/-- A listing with a condition is read if the one without it is, and gives those entities that match
exactly when rows and entities match alike. -/
theorem readEach_filtered_iff (select : Select) (h : store.readEach read select = .ok all)
    (hfilter : select.filter = none) (hdistinct : select.distinct = none) (predicate : Predicate)
    (p : α → Bool) : ∃ rows found, store.tableRows select.table = .ok rows ∧
      store.readEach read (select.filtered predicate) = .ok found ∧
      (found = all.filter p ↔
        ∀ row ∈ rows, ∀ a, read row = .ok a → predicate.holds row = p a) := by
  obtain ⟨selected, hselected, hread⟩ := bind_eq_ok.mp h
  obtain ⟨rows, hrows, hevaluate⟩ := bind_eq_ok.mp hselected
  cases hevaluate
  obtain ⟨found, hfound, -, hiff⟩ := mapM_filter_eq_iff hread (predicate.holds ·) p
  have hselected : ∀ row, row ∈ select.evaluate rows ↔ row ∈ rows := by
    intro row
    rw [Select.mem_evaluate_iff hdistinct, hfilter]
    simp
  simp only [hselected] at hiff
  refine ⟨rows, found, hrows, ?_, hiff⟩
  have hquery : store.query (select.filtered predicate) =
      .ok ((select.evaluate rows).filter (predicate.holds ·)) := by
    rw [← Select.evaluate_filtered hfilter hdistinct]
    exact bind_eq_ok.mpr ⟨rows, hrows, rfl⟩
  exact bind_eq_ok.mpr ⟨_, hquery, hfound⟩

/-- It gives those that match if each row of the table matches as what it is read as. -/
theorem readEach_filtered_of_rows (select : Select) (hrows : store.tableRows select.table = .ok rows)
    (h : store.readEach read select = .ok all) (hfilter : select.filter = none)
    (hdistinct : select.distinct = none) {p : α → Bool}
    (hmatch : ∀ row ∈ rows, ∀ a, read row = .ok a → predicate.holds row = p a) :
    store.readEach read (select.filtered predicate) = .ok (all.filter p) := by
  obtain ⟨stored, found, hstored, hfound, hiff⟩ :=
    readEach_filtered_iff select h hfilter hdistinct predicate p
  cases hrows.symm.trans hstored
  rw [hfound, hiff.mpr hmatch]

theorem readEach_filtered (select : Select) (h : store.readEach read select = .ok all)
    (hfilter : select.filter = none) (hdistinct : select.distinct = none) {p : α → Bool}
    (hmatch : ∀ row a, read row = .ok a → predicate.holds row = p a) :
    store.readEach read (select.filtered predicate) = .ok (all.filter p) := by
  obtain ⟨rows, found, -, hfound, hiff⟩ :=
    readEach_filtered_iff select h hfilter hdistinct predicate p
  rw [hfound, hiff.mpr fun row _ => hmatch row]

/-- What is read comes from the rows that are chosen, each of which can be read. -/
theorem mem_readEach (read : Record → Except DatabaseError α) (select : Select)
    (hrows : store.tableRows select.table = .ok rows)
    (hdistinct : select.distinct = none) (h : store.readEach read select = .ok all) :
    (∀ row ∈ rows, select.Chooses row → Succeeds (read row)) ∧
      ∀ a, a ∈ all ↔ ∃ row ∈ rows, select.Chooses row ∧ read row = .ok a := by
  obtain ⟨selected, hselected, hread⟩ := bind_eq_ok.mp h
  obtain ⟨stored, hstored, hevaluate⟩ := bind_eq_ok.mp hselected
  cases hrows.symm.trans hstored
  cases hevaluate
  obtain ⟨hall, hmem⟩ := of_mapM_eq_ok hread
  refine ⟨fun row hrow hchosen => ?_, fun a => ?_⟩
  · exact hall row ((Select.mem_evaluate_iff hdistinct).mpr ⟨hrow, hchosen⟩)
  · simp only [hmem, Select.mem_evaluate_iff hdistinct, and_assoc]
    rfl

/-- Without a condition every row is read, and nothing else. -/
theorem rows_of_readEach (read : Record → Except DatabaseError α) (select : Select)
    (hrows : store.tableRows select.table = .ok rows) (hfilter : select.filter = none)
    (hdistinct : select.distinct = none) (h : store.readEach read select = .ok all) :
    (∀ row ∈ rows, ∃ a ∈ all, read row = .ok a) ∧ ∀ a ∈ all, ∃ row ∈ rows, read row = .ok a := by
  have hchosen : ∀ row, select.Chooses row := by
    intro row predicate hpredicate
    rw [hfilter] at hpredicate
    cases hpredicate
  obtain ⟨hread, hmem⟩ := mem_readEach read select hrows hdistinct h
  constructor
  · intro row hrow
    obtain ⟨a, ha⟩ := hread row hrow (hchosen row)
    exact ⟨a, (hmem a).mpr ⟨row, hrow, hchosen row, ha⟩, ha⟩
  · intro a ha
    obtain ⟨row, hrow, -, hrowread⟩ := (hmem a).mp ha
    exact ⟨row, hrow, hrowread⟩

/-- A listing by a column is read if the rows that it chooses are: they are arranged, and then read
one by one. -/
theorem readEach_arranged (read : Record → Except DatabaseError α) (order : Ordered)
    (predicate : Predicate) {table : Table} (hrows : store.tableRows table = .ok rows)
    (hread : ∀ row ∈ rows, predicate.holds row = true → Succeeds (read row)) : ∃ arranged found,
    order.Arranges (rows.filter (predicate.holds ·)) arranged ∧ arranged.mapM read = .ok found ∧
      store.readEach read ⟨table, some predicate, some order, none⟩ = .ok found := by
  have harranged := order.arranges_sort (rows.filter (predicate.holds ·))
  obtain ⟨found, hfound⟩ := Succeeds.mapM fun row hrow => by
    obtain ⟨hrow, hholds⟩ := List.mem_filter.mp (harranged.perm.mem_iff.mp hrow)
    exact hread row hrow hholds
  exact ⟨_, found, harranged, hfound, bind_eq_ok.mpr ⟨_, bind_eq_ok.mpr ⟨rows, hrows, rfl⟩, hfound⟩⟩

end Store
end Planner

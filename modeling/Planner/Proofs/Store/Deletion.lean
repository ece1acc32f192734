import Planner.Proofs.Selection
import Planner.Proofs.Store.Placing

/-! Deletions against selections: a deletion removes what a selection with the same filter shows, and
deletions one after the other leave the rows that none of their filters chooses, in whatever order. -/
namespace Planner

/-- Whether a filter chooses a row: the row matches it, or there is no filter. -/
def Predicate.Chosen (filter : Option Predicate) (row : Record) : Prop :=
  ∀ predicate ∈ filter, predicate.holds row = true

instance (filter : Option Predicate) : DecidablePred (Predicate.Chosen filter) := fun row =>
  inferInstanceAs (Decidable (∀ predicate ∈ filter, predicate.holds row = true))

/-- The rows that a selection finds are those that its filter chooses, in some order. -/
theorem Select.perm_evaluate {select : Select} (hdistinct : select.distinct = none)
    (rows : List Record) :
    (select.evaluate rows).Perm (rows.filter (Predicate.Chosen select.filter ·)) := by
  simp only [evaluate, hdistinct, sorted, matching_eq]
  cases select.order with
  | none => exact .refl _
  | some order => exact List.mergeSort_perm _ order.le

namespace Store

open Json Outcome
open Predicate (Chosen)

variable {store store' : Store} {table : Table} {rows : List Record} {row : Record}
  {filter : Option Predicate} {filters : List (Option Predicate)} {p q : Predicate}

/-! ### One deletion -/

theorem kept_eq (filter : Option Predicate) (rows : List Record) :
    kept filter rows = rows.filter (¬ Chosen filter ·) := by
  cases filter with
  | none => simp [kept, Chosen]
  | some predicate => exact List.filter_congr fun row _ => by simp [Chosen]

theorem effect_delete (filter : Option Predicate) (rows : List Record) :
    (Statement.delete table filter).effect rows = .ok ((rows.filter (Chosen filter ·)).length,
      if ∃ row ∈ rows, Chosen filter row then some (rows.filter (¬ Chosen filter ·)) else none) := by
  have hlength := List.length_eq_length_filter_add (l := rows) (Chosen filter ·)
  have hremoved : rows.length - (rows.filter (¬ Chosen filter ·)).length =
      (rows.filter (Chosen filter ·)).length := by
    simp only [← decide_not] at hlength
    omega
  have hnone : (rows.filter (Chosen filter ·)).length = 0 ↔ ¬ ∃ row ∈ rows, Chosen filter row := by
    rw [List.length_eq_zero_iff, List.filter_eq_nil_iff]
    simp
  simp only [Statement.effect, kept_eq, hremoved]
  by_cases hsome : ∃ row ∈ rows, Chosen filter row
  · rw [if_pos hsome, if_neg (mt hnone.mp (not_not_intro hsome))]
  · rw [if_neg hsome, if_pos (hnone.mpr hsome), hnone.mpr hsome]

/-- What a deletion does to a store whose table has the given rows: those that the filter does not
choose are written, and so read anew then, unless it chooses none. -/
structure Deletes (table : Table) (filter : Option Predicate) (rows : List Record)
    (store store' : Store) : Prop where
  takesWrites : store'.quota = none
  others : ∀ name ≠ table.name, store'.text? name = store.text? name
  removed : (∃ row ∈ rows, Chosen filter row) →
    store'.tableRows table = .ok ((rows.filter (¬ Chosen filter ·)).map rereadFields)
  nothing : (∀ row ∈ rows, ¬ Chosen filter row) → store' = store

theorem exists_deletes (hquota : store.quota = none) (hrows : store.tableRows table = .ok rows)
    (filter : Option Predicate) : ∃ store',
      store.apply (.delete table filter) = .ok ((rows.filter (Chosen filter ·)).length, store') ∧
      Deletes table filter rows store store' := by
  have heffect : (store.tableRows table >>= (Statement.delete table filter).effect) = _ :=
    bind_eq_ok.mpr ⟨rows, hrows, effect_delete filter rows⟩
  have happly : store.apply (.delete table filter) = _ := apply_takesWrites hquota nofun
  rw [show (Statement.delete table filter).table = table from rfl, heffect] at happly
  refine ⟨_, happly, by simp [hquota], fun name hname => text?_rewritten_ne hname, fun hsome => ?_,
    fun hnone => ?_⟩
  · rw [if_pos hsome]
    refine tableRows_written fun row hrow => storable_of_tableRows hrows row ?_
    exact List.mem_of_mem_filter hrow
  · rw [if_neg (by simpa using hnone)]
    rfl

theorem filter_not_chosen (h : ∀ row ∈ rows, ¬ Chosen filter row) :
    rows.filter (¬ Chosen filter ·) = rows :=
  List.filter_eq_self.mpr fun row hrow => decide_eq_true (h row hrow)

namespace Deletes

/-- The rows that are left are as they were if nothing is removed or they are read back as
themselves, and only then. -/
theorem left_iff (h : Deletes table filter rows store store')
    (hrows : store.tableRows table = .ok rows) :
    store'.tableRows table = .ok (rows.filter (¬ Chosen filter ·)) ↔
      (∀ row ∈ rows, ¬ Chosen filter row) ∨
        ∀ row ∈ rows, ¬ Chosen filter row → rereadFields row = row := by
  by_cases hnone : ∀ row ∈ rows, ¬ Chosen filter row
  · rw [h.nothing hnone, hrows, filter_not_chosen hnone]
    exact iff_of_true rfl (.inl hnone)
  · have hsome : ∃ row ∈ rows, Chosen filter row := by simpa using hnone
    rw [h.removed hsome, Except.ok.injEq, map_reread_eq_self_iff, or_iff_right hnone]
    simp

theorem left (h : Deletes table filter rows store store') (hrows : store.tableRows table = .ok rows)
    (hreread : ∀ row ∈ rows, ¬ Chosen filter row → rereadFields row = row) :
    store'.tableRows table = .ok (rows.filter (¬ Chosen filter ·)) :=
  (h.left_iff hrows).mpr (.inr hreread)

end Deletes

/-- Where the filter chooses no row a deletion leaves the store alone. -/
theorem apply_delete_nothing (hquota : store.quota = none)
    (hrows : store.tableRows table = .ok rows) (hnone : ∀ row ∈ rows, ¬ Chosen filter row) :
    store.apply (.delete table filter) = .ok (0, store) := by
  obtain ⟨store', happly, hdeletes⟩ := exists_deletes hquota hrows filter
  have hempty : rows.filter (Chosen filter ·) = [] :=
    List.filter_eq_nil_iff.mpr fun row hrow => by simpa using hnone row hrow
  rw [happly, hempty, hdeletes.nothing hnone]
  rfl

/-- A selection finds as many rows as a deletion with its filter removes. -/
theorem query_chosen (hrows : store.tableRows table = .ok rows) (filter : Option Predicate)
    (order : Option Ordered) : ∃ found, store.query ⟨table, filter, order, none⟩ = .ok found ∧
      found.Perm (rows.filter (Chosen filter ·)) :=
  ⟨_, bind_eq_ok.mpr ⟨rows, hrows, rfl⟩, Select.perm_evaluate rfl rows⟩

theorem query_everything_iff :
    store.query (.everything table) = .ok rows ↔ store.tableRows table = .ok rows := by
  constructor
  · intro h
    obtain ⟨rows', hrows', h⟩ := bind_eq_ok.mp h
    cases h
    exact hrows'
  · intro h
    exact bind_eq_ok.mpr ⟨rows, h, rfl⟩

/-! ### Deletions one after the other -/

/-- Whether deletions by the given filters, one after the other, all run, touch so many rows and
leave the given ones. -/
def Leaves (table : Table) (filters : List (Option Predicate)) (count : Nat) (left : List Record)
    (store : Store) : Prop :=
  ∃ store', store.applyBatch (filters.map (.delete table)) = (.ok count, store') ∧
    store'.tableRows table = .ok left

/-- Deletions leave the rows that none of their filters chooses. -/
theorem applyFrom_deletions (hquota : store.quota = none) (hrows : store.tableRows table = .ok rows)
    (hreread : ∀ row ∈ rows, rereadFields row = row) (filters : List (Option Predicate))
    (index touched : Nat) : ∃ count store',
      store.applyFrom index touched (filters.map (.delete table)) = (.ok (touched + count), store') ∧
      store'.tableRows table = .ok (rows.filter fun row => ∀ filter ∈ filters, ¬ Chosen filter row) ∧
      count + (rows.filter fun row => ∀ filter ∈ filters, ¬ Chosen filter row).length =
        rows.length := by
  induction filters generalizing store rows index touched with
  | nil => exact ⟨0, store, rfl, by simpa using hrows, by simp⟩
  | cons filter filters ih =>
    obtain ⟨store₁, happly, hdeletes⟩ := exists_deletes hquota hrows filter
    have hrows₁ := hdeletes.left hrows fun row hrow _ => hreread row hrow
    obtain ⟨count, store₂, hrest, hrows₂, hcount⟩ := ih hdeletes.takesWrites hrows₁
      (fun row hrow => hreread row (List.mem_of_mem_filter hrow)) (index + 1)
      (touched + (rows.filter (Chosen filter ·)).length)
    have hleft : ((rows.filter (¬ Chosen filter ·)).filter fun row =>
        ∀ filter ∈ filters, ¬ Chosen filter row) =
          rows.filter fun row => ∀ other ∈ filter :: filters, ¬ Chosen other row := by
      rw [List.filter_filter]
      exact List.filter_congr fun row _ => by simp [Bool.and_comm]
    have hlength := List.length_eq_length_filter_add (l := rows) (Chosen filter ·)
    simp only [← decide_not] at hlength
    rw [hleft] at hrows₂ hcount
    refine ⟨(rows.filter (Chosen filter ·)).length + count, store₂, ?_, hrows₂, by omega⟩
    rw [List.map_cons, applyFrom, happly]
    dsimp only
    rw [hrest, Nat.add_assoc]

theorem exists_leaves (hquota : store.quota = none) (hrows : store.tableRows table = .ok rows)
    (hreread : ∀ row ∈ rows, rereadFields row = row) (filters : List (Option Predicate)) :
    store.Leaves table filters
      (rows.length - (rows.filter fun row => ∀ filter ∈ filters, ¬ Chosen filter row).length)
      (rows.filter fun row => ∀ filter ∈ filters, ¬ Chosen filter row) := by
  obtain ⟨count, store', hrun, hleft, hcount⟩ := applyFrom_deletions hquota hrows hreread filters 0 0
  refine ⟨store', ?_, hleft⟩
  rw [applyBatch, hrun, ← hcount, Nat.add_sub_cancel, Nat.zero_add]

/-- Filters that choose the same rows among them leave the same. -/
theorem Leaves.congr (hquota : store.quota = none) (hrows : store.tableRows table = .ok rows)
    (hreread : ∀ row ∈ rows, rereadFields row = row) (filters others : List (Option Predicate))
    (h : ∀ row, (∃ filter ∈ filters, Chosen filter row) ↔ ∃ filter ∈ others, Chosen filter row) :
    ∃ count left, store.Leaves table filters count left ∧ store.Leaves table others count left ∧
      left = rows.filter fun row => ∀ filter ∈ filters, ¬ Chosen filter row := by
  have hsame : (rows.filter fun row => ∀ filter ∈ others, ¬ Chosen filter row) =
      rows.filter fun row => ∀ filter ∈ filters, ¬ Chosen filter row := by
    refine List.filter_congr fun row _ => decide_eq_decide.mpr ?_
    have hrow := not_congr (h row)
    push Not at hrow
    exact hrow.symm
  have hothers := exists_leaves hquota hrows hreread others
  rw [hsame] at hothers
  exact ⟨_, _, exists_leaves hquota hrows hreread filters, hothers, rfl⟩

theorem chosen_any : Chosen (some (.any [p, q])) row ↔ Chosen (some p) row ∨ Chosen (some q) row := by
  simp [Chosen, Predicate.holds, Predicate.anyHolds]

/-- A deletion touches as many rows as a selection with its filter finds. The other rows are left as
they were exactly if none was removed or their doubles are read back as themselves; then the selection
finds nothing any more and deleting again changes nothing. -/
structure DeletesFound (table : Table) (filter : Option Predicate) (order : Option Ordered)
    (rows found : List Record) (store store' : Store) : Prop where
  shown : store.query ⟨table, filter, order, none⟩ = .ok found
  perm : found.Perm (rows.filter (Chosen filter ·))
  run : store.apply (.delete table filter) = .ok (found.length, store')
  others : ∀ name ≠ table.name, store'.text? name = store.text? name
  kept_iff : store'.query (.everything table) = .ok (rows.filter (¬ Chosen filter ·)) ↔
    found = [] ∨ ∀ row ∈ rows, ¬ Chosen filter row → rereadFields row = row
  gone : store'.query (.everything table) = .ok (rows.filter (¬ Chosen filter ·)) →
    store'.query ⟨table, filter, order, none⟩ = .ok []
  again : store'.query (.everything table) = .ok (rows.filter (¬ Chosen filter ·)) →
    store'.apply (.delete table filter) = .ok (0, store')

/-- Two deletions leave the same in either order, and the same as one by both filters. -/
structure DeletesInAnyOrder (table : Table) (rows : List Record) (store : Store) : Prop where
  swapped : ∀ first second : Option Predicate, ∃ count left,
    store.Leaves table [first, second] count left ∧
    store.Leaves table [second, first] count left ∧
    left = rows.filter fun row => ¬ Chosen first row ∧ ¬ Chosen second row
  joined : ∀ p q : Predicate, ∃ count left, store.Leaves table [some p, some q] count left ∧
    store.Leaves table [some (.any [p, q])] count left

/-- On a store that takes every write a deletion removes what a selection shows, and deletions may be
swapped and joined where all rows are read back as themselves. -/
theorem delete_shown (hquota : store.quota = none) (hrows : store.tableRows table = .ok rows)
    (filter : Option Predicate) (order : Option Ordered) :
    (∃ found store', DeletesFound table filter order rows found store store') ∧
    ((∀ row ∈ rows, rereadFields row = row) → DeletesInAnyOrder table rows store) := by
  obtain ⟨found, hfound, hperm⟩ := query_chosen hrows filter order
  obtain ⟨store', happly, hdeletes⟩ := exists_deletes hquota hrows filter
  have hnone : found = [] ↔ ∀ row ∈ rows, ¬ Chosen filter row := by
    rw [← List.length_eq_zero_iff, hperm.length_eq, List.length_eq_zero_iff,
      List.filter_eq_nil_iff]
    simp
  have hall : store'.query (.everything table) = .ok (rows.filter (¬ Chosen filter ·)) ↔
      store'.tableRows table = .ok (rows.filter (¬ Chosen filter ·)) := query_everything_iff
  have hgone : ∀ row ∈ rows.filter (¬ Chosen filter ·), ¬ Chosen filter row :=
    fun row hrow => of_decide_eq_true (List.mem_filter.mp hrow).2
  refine ⟨⟨found, store', hfound, hperm, hperm.length_eq ▸ happly, hdeletes.others, ?_, fun h => ?_,
    fun h => apply_delete_nothing hdeletes.takesWrites (hall.mp h) hgone⟩,
    fun hreread => ⟨fun first second => ?_, fun p q => ?_⟩⟩
  · rw [hall, hdeletes.left_iff hrows, hnone]
  · obtain ⟨again, hagain, hempty⟩ := query_chosen (hall.mp h) filter order
    rw [List.filter_eq_nil_iff.mpr fun row hrow => by simpa using hgone row hrow] at hempty
    rw [hagain, hempty.eq_nil]
  · obtain ⟨count, left, hfirst, hsecond, hleft⟩ := Leaves.congr hquota hrows hreread
      [first, second] [second, first] fun row => by simp [or_comm]
    exact ⟨count, left, hfirst, hsecond, by simpa using hleft⟩
  · obtain ⟨count, left, hboth, hone, -⟩ := Leaves.congr hquota hrows hreread
      [some p, some q] [some (.any [p, q])] fun row => by simp [chosen_any]
    exact ⟨count, left, hboth, hone⟩

/-- Tasks whose days are a text, null, a number and missing. -/
def chores : List Record := [
  [("due_date", .text "2024-05-07"), ("id", .text "a")], [("due_date", .null), ("id", .text "b")],
  [("due_date", .number (.integer ⟨20240507, by decide⟩)), ("id", .text "c")], [("id", .text "d")]]

/-- The days of a May. -/
def inMay : Predicate := .range "due_date" (.text "2024-05-01") (.text "2024-05-31")

theorem delete_shown_chores :
    (∃ store', (empty.written .tasks chores).apply (.delete .tasks (some inMay)) = .ok (1, store') ∧
      store'.query (.everything .tasks) = .ok (chores.drop 1) ∧
      store'.query ⟨.tasks, some inMay, none, none⟩ = .ok [] ∧
      store'.apply (.delete .tasks (some inMay)) = .ok (0, store')) ∧
    ∃ count left, (empty.written .tasks chores).Leaves .tasks
        [some inMay, some (.equal "due_date" .null)] count left ∧
      (empty.written .tasks chores).Leaves .tasks
        [some (.any [inMay, .equal "due_date" .null])] count left := by
  have hplain : ∀ row ∈ chores, row.Plain := by
    simp only [chores, List.forall_mem_cons]
    exact ⟨⟨by unfold Record.Ordered; decide, by simp [Plain, depth, doubles]⟩,
      ⟨by unfold Record.Ordered; decide, by simp [Plain, depth, doubles]⟩,
      ⟨by unfold Record.Ordered; decide, by simp [Plain, depth, doubles]⟩,
      ⟨by unfold Record.Ordered; decide, by simp [Plain, depth, doubles]⟩, by simp⟩
  have hrows : (empty.written .tasks chores).tableRows .tasks = .ok chores := tableRows_plain hplain
  have hreread : ∀ row ∈ chores, rereadFields row = row := fun row hrow => (hplain row hrow).reread_eq
  obtain ⟨⟨found, store', hdeletes⟩, hboth⟩ := delete_shown rfl hrows (some inMay) none
  have hleft := hdeletes.kept_iff.mpr (.inr fun row hrow _ => hreread row hrow)
  have hone : found.length = 1 := hdeletes.perm.length_eq.trans (by decide)
  refine ⟨⟨store', hone ▸ hdeletes.run, hleft.trans ?_, hdeletes.gone hleft, hdeletes.again hleft⟩,
    (hboth hreread).joined inMay _⟩
  exact congrArg Except.ok (by decide)

/-- A task, and one with a double that is read as another. -/
def restlessChores : List Record :=
  [[("id", .text "a")], [("effort", .number (.double restless)), ("id", .text "b")]]

def firstOrRestless : Predicate :=
  .any [.equal "id" (.text "a"), .equal "effort" (.number (.double restless))]

/-- Deleting the first task changes the other one, which the filter chooses then. -/
theorem not_deleted_restless : ∃ rows found store',
    (empty.written .tasks restlessChores).tableRows .tasks = .ok rows ∧
    (empty.written .tasks restlessChores).query ⟨.tasks, some firstOrRestless, none, none⟩ =
      .ok found ∧
    (empty.written .tasks restlessChores).apply (.delete .tasks (some firstOrRestless)) =
      .ok (found.length, store') ∧
    store'.query (.everything .tasks) ≠ .ok (rows.filter (¬ Chosen (some firstOrRestless) ·)) ∧
    store'.query ⟨.tasks, some firstOrRestless, none, none⟩ ≠ .ok [] ∧
    ∃ again, store'.apply (.delete .tasks (some firstOrRestless)) = .ok (1, again) := by
  have hstorable : ∀ row ∈ restlessChores, Storable row := by
    simp only [restlessChores, List.forall_mem_cons]
    exact ⟨⟨by unfold Record.Ordered; decide, by simp [Fits, Sorted, depth]⟩,
      ⟨by unfold Record.Ordered; decide, by simp [Fits, Sorted, depth]⟩, by simp⟩
  have hrows : (empty.written .tasks restlessChores).tableRows .tasks = _ :=
    tableRows_written hstorable
  obtain ⟨found, hfound, hperm⟩ := query_chosen hrows (some firstOrRestless) none
  obtain ⟨store', happly, hdeletes⟩ := exists_deletes rfl hrows (some firstOrRestless)
  have hleft := hdeletes.removed (by decide +kernel)
  obtain ⟨second, hsecond, hperm'⟩ := query_chosen hleft (some firstOrRestless) none
  obtain ⟨again, hagain, -⟩ := exists_deletes hdeletes.takesWrites hleft (some firstOrRestless)
  have hone : (((restlessChores.map rereadFields).filter
      (¬ Chosen (some firstOrRestless) ·)).map rereadFields |>.filter
        (Chosen (some firstOrRestless) ·)).length = 1 := by decide +kernel
  refine ⟨_, found, store', hrows, hfound, hperm.length_eq ▸ happly, fun hkept => ?_, fun hnone => ?_,
    again, hone ▸ hagain⟩
  · have hsame := Except.ok.inj (hleft.symm.trans (query_everything_iff.mp hkept))
    have hchanged : ((restlessChores.map rereadFields).filter
      (¬ Chosen (some firstOrRestless) ·)).map rereadFields ≠ (restlessChores.map rereadFields).filter
        (¬ Chosen (some firstOrRestless) ·) := by decide +kernel
    exact hchanged hsame
  · cases hsecond.symm.trans hnone
    rw [← hperm'.length_eq] at hone
    cases hone

end Store
end Planner

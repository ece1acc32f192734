import Planner.Proofs.Json.Order
import Planner.Proofs.Store.Upsert
import Planner.Statement

/-! What a selection means: the rows that match, arranged by the ordered column so that ties stay as
they stood, or the different values of a column, each at its first place in that arrangement. These
conditions leave one list, and it is the one that is computed. -/
namespace Planner

/-! ### Arranged rows -/

/-- Two arrangements of the same rows in which ties stand alike are one. -/
theorem eq_of_arranged {α : Type} {order : α → α → Ordering} [Std.TransCmp order] {s t : List α}
    (hperm : s.Perm t) (hs : s.Pairwise (order · · ≠ .gt)) (ht : t.Pairwise (order · · ≠ .gt))
    (hties : ∀ a, s.filter (order a · = .eq) = t.filter (order a · = .eq)) : s = t := by
  induction s generalizing t with
  | nil => exact hperm.nil_eq
  | cons a s ih =>
    cases t with
    | nil => exact absurd hperm.eq_nil (List.cons_ne_nil a s)
    | cons b t =>
      obtain ⟨hfirst, hrest⟩ := List.pairwise_cons.mp hs
      obtain ⟨hfirst', hrest'⟩ := List.pairwise_cons.mp ht
      have hself : ∀ c, order c c = .eq := fun c => Std.ReflCmp.compare_self
      have hswap : order b a = (order a b).swap := Std.OrientedCmp.eq_swap
      -- neither of the first two is after the other
      have htie : order a b = .eq := by
        have hab : order a b ≠ .gt := by
          rcases List.mem_cons.mp (hperm.mem_iff.mpr (List.mem_cons_self ..)) with rfl | hb
          · simp [hself]
          · exact hfirst b hb
        have hba : order b a ≠ .gt := by
          rcases List.mem_cons.mp (hperm.mem_iff.mp (List.mem_cons_self ..)) with rfl | ha
          · simp [hself]
          · exact hfirst' a ha
        cases horder : order a b <;> simp_all
      have hsame : a = b := by
        have hhead := congrArg List.head? (hties a)
        simpa [hself, htie] using hhead
      subst hsame
      rw [ih ((List.perm_cons a).mp hperm) hrest hrest' fun c => ?_]
      have hc := hties c
      by_cases hca : order c a = .eq <;> simpa [hca] using hc

namespace Ordered

variable {order : Ordered} {rows arranged : List Record}

/-- How two rows compare by the ordered column: as its values do, or the other way round. -/
def compareRows (order : Ordered) (a b : Record) : Ordering :=
  match order.direction with
  | .ascending => Json.sortCompare (a.get? order.column) (b.get? order.column)
  | .descending => (Json.sortCompare (a.get? order.column) (b.get? order.column)).swap

instance (order : Ordered) : Std.TransCmp order.compareRows := by
  obtain ⟨column, direction⟩ := order
  have hswap : ∀ a b : Record, Json.sortCompare (a.get? column) (b.get? column) =
      (Json.sortCompare (b.get? column) (a.get? column)).swap := fun _ _ => Std.OrientedCmp.eq_swap
  cases direction with
  | ascending =>
    refine { eq_swap := hswap _ _, isLE_trans := fun {a b c} hab hbc => ?_ }
    simp only [compareRows] at hab hbc ⊢
    exact Std.TransCmp.isLE_trans hab hbc
  | descending =>
    refine {
      eq_swap := congrArg Ordering.swap (hswap _ _)
      isLE_trans := fun {a b c} hab hbc => ?_ }
    simp only [compareRows, Ordering.isLE_swap] at hab hbc ⊢
    exact Std.TransCmp.isGE_trans hab hbc

theorem le_eq (order : Ordered) (a b : Record) : order.le a b = (order.compareRows a b).isLE := by
  unfold le compareRows
  cases order.direction with
  | ascending => rfl
  | descending => exact Ordering.isLE_swap.symm

/-- Whether a list has exactly the given rows, none after one that it comes before, and those that
tie in the order in which they are given. -/
structure Arranges (order : Ordered) (rows arranged : List Record) : Prop where
  perm : arranged.Perm rows
  inOrder : arranged.Pairwise (order.compareRows · · ≠ .gt)
  stable : ∀ row, arranged.filter (order.compareRows row · = .eq) =
    rows.filter (order.compareRows row · = .eq)

theorem Arranges.unique {other : List Record} (h : order.Arranges rows arranged)
    (hother : order.Arranges rows other) : arranged = other :=
  eq_of_arranged (h.perm.trans hother.perm.symm) h.inOrder hother.inOrder fun row =>
    (h.stable row).trans (hother.stable row).symm

theorem arranges_sort (order : Ordered) (rows : List Record) :
    order.Arranges rows (order.sort rows) := by
  have htrans : ∀ a b c, order.le a b = true → order.le b c = true → order.le a c = true := by
    intro a b c
    simp only [le_eq]
    exact Std.TransCmp.isLE_trans
  have htotal : ∀ a b, (order.le a b || order.le b a) = true := by
    intro a b
    have hswap : order.compareRows b a = (order.compareRows a b).swap := Std.OrientedCmp.eq_swap
    rw [le_eq, le_eq, hswap]
    cases order.compareRows a b <;> rfl
  refine ⟨List.mergeSort_perm rows _, ?_, fun row => ?_⟩
  · refine (List.pairwise_mergeSort htrans htotal rows).imp fun hle => ?_
    rwa [le_eq, Ordering.isLE_iff_ne_gt] at hle
  · -- the rows that tie with one are arranged already, so they stand in the sorted list as well
    have hties : (rows.filter (order.compareRows row · = .eq)).Pairwise (order.le · · = true) := by
      refine List.pairwise_of_forall_mem_list fun a ha b hb => ?_
      have ha := of_decide_eq_true (List.mem_filter.mp ha).2
      have hb := of_decide_eq_true (List.mem_filter.mp hb).2
      rw [le_eq, ← Std.TransCmp.congr_left ha, hb]
      rfl
    have hsub := (List.sublist_mergeSort htrans htotal hties List.filter_sublist).filter
      (order.compareRows row · = .eq)
    rw [List.filter_filter] at hsub
    simp only [Bool.and_self] at hsub
    refine (hsub.eq_of_length ?_).symm
    exact ((List.mergeSort_perm rows order.le).filter _).length_eq.symm

theorem pairwise_le_sort (order : Ordered) (rows : List Record) :
    (order.sort rows).Pairwise fun a b => order.le a b = true :=
  (order.arranges_sort rows).inOrder.imp fun hne => by
    rwa [le_eq, Ordering.isLE_iff_ne_gt]

/-- The chosen ones of arranged rows are the chosen rows, arranged. -/
theorem Arranges.filter (h : order.Arranges rows arranged) (p : Record → Bool) :
    order.Arranges (rows.filter p) (arranged.filter p) where
  perm := h.perm.filter p
  inOrder := h.inOrder.filter p
  stable row := by
    rw [List.filter_comm, h.stable row, List.filter_comm]

theorem sort_filter (order : Ordered) (p : Record → Bool) (rows : List Record) :
    order.sort (rows.filter p) = (order.sort rows).filter p :=
  (order.arranges_sort _).unique ((order.arranges_sort rows).filter p)

end Ordered

/-! ### Different values -/

namespace Select

variable {column : String} {row : Record} {rows : List Record} {seen values others : List Json}
  {v w : Json}

/-- What a row has in a column, null if it lacks it. -/
def columnValue (column : String) (row : Record) : Json := (row.get? column).getD .null

/-- The first place at which a value stands in a column. -/
def firstPlace (column : String) (rows : List Record) (v : Json) : Nat :=
  rows.findIdx fun row => v.same (columnValue column row)

theorem firstPlace_cons_self (h : v.same (columnValue column row) = true) :
    firstPlace column (row :: rows) v = 0 := by
  simp [firstPlace, List.findIdx_cons, h]

theorem firstPlace_cons_ne (h : v.same (columnValue column row) = false) :
    firstPlace column (row :: rows) v = firstPlace column rows v + 1 := by
  simp [firstPlace, List.findIdx_cons, h]

theorem firstPlace_congr (h : v.same w = true) :
    firstPlace column rows v = firstPlace column rows w := by
  unfold firstPlace
  congr 1
  funext row
  rw [Bool.eq_iff_iff, Json.same_iff, Json.same_iff, Json.same_iff.mp h]

/-- Whether values are those of a column that are not seen already: no two of them the same, every
value of the column the same as one that is seen or listed, and each as it stands at its first
place, in the order of these places. -/
structure ListsUnseen (column : String) (seen : List Json) (rows : List Record)
    (values : List Json) : Prop where
  unseen : ∀ v ∈ values, ∀ s ∈ seen, s.same v = false
  different : values.Pairwise fun v w => v.same w = false
  complete : ∀ row ∈ rows, ∃ v ∈ seen ++ values, v.same (columnValue column row) = true
  first : ∀ v ∈ values, rows[firstPlace column rows v]?.map (columnValue column) = some v
  inOrder : values.Pairwise fun v w => firstPlace column rows v < firstPlace column rows w

/-- Whether values are the different ones of a column, in the order in which they first occur. -/
def Lists (column : String) (rows : List Record) (values : List Json) : Prop :=
  ListsUnseen column [] rows values

namespace ListsUnseen

/-- In front of the rows stands one whose value none of the listed values is. -/
theorem later (h : ListsUnseen column seen rows values)
    (hne : ∀ v ∈ values, v.same (columnValue column row) = false) :
    (∀ v ∈ values, (row :: rows)[firstPlace column (row :: rows) v]?.map (columnValue column) =
      some v) ∧
    values.Pairwise fun v w =>
      firstPlace column (row :: rows) v < firstPlace column (row :: rows) w := by
  constructor
  · intro v hv
    rw [firstPlace_cons_ne (hne v hv), List.getElem?_cons_succ]
    exact h.first v hv
  · refine h.inOrder.imp_of_mem fun hv hw hlt => ?_
    rw [firstPlace_cons_ne (hne _ hv), firstPlace_cons_ne (hne _ hw)]
    exact Nat.succ_lt_succ hlt

theorem skip (h : ListsUnseen column seen rows values) {s : Json} (hs : s ∈ seen)
    (hsame : s.same (columnValue column row) = true) :
    ListsUnseen column seen (row :: rows) values := by
  have hne : ∀ v ∈ values, v.same (columnValue column row) = false := by
    intro v hv
    have hunseen := h.unseen v hv s hs
    rw [Bool.eq_false_iff, ne_eq, Json.same_iff] at hunseen ⊢
    exact fun heq => hunseen ((Json.same_iff.mp hsame).trans heq.symm)
  obtain ⟨hfirst, hinOrder⟩ := h.later hne
  refine ⟨h.unseen, h.different, List.forall_mem_cons.mpr ⟨?_, h.complete⟩, hfirst, hinOrder⟩
  exact ⟨s, List.mem_append_left _ hs, hsame⟩

theorem take (h : ListsUnseen column (columnValue column row :: seen) rows values)
    (hnew : ∀ s ∈ seen, s.same (columnValue column row) = false) :
    ListsUnseen column seen (row :: rows) (columnValue column row :: values) := by
  have hself : (columnValue column row).same (columnValue column row) = true :=
    Json.same_iff.mpr rfl
  have hne : ∀ v ∈ values, (columnValue column row).same v = false :=
    fun v hv => h.unseen v hv _ (List.mem_cons_self ..)
  have hne' : ∀ v ∈ values, v.same (columnValue column row) = false := by
    intro v hv
    have hv := hne v hv
    rw [Bool.eq_false_iff, ne_eq, Json.same_iff] at hv ⊢
    exact Ne.symm hv
  obtain ⟨hfirst, hinOrder⟩ := h.later hne'
  have hzero : firstPlace column (row :: rows) (columnValue column row) = 0 :=
    firstPlace_cons_self hself
  refine ⟨?_, List.pairwise_cons.mpr ⟨hne, h.different⟩, ?_, ?_, ?_⟩
  · refine List.forall_mem_cons.mpr ⟨hnew, fun v hv s hs => ?_⟩
    exact h.unseen v hv s (List.mem_cons_of_mem _ hs)
  · refine List.forall_mem_cons.mpr ⟨⟨_, by simp, hself⟩, fun other hother => ?_⟩
    obtain ⟨v, hv, hsame⟩ := h.complete other hother
    exact ⟨v, by simpa [or_left_comm] using hv, hsame⟩
  · refine List.forall_mem_cons.mpr ⟨?_, hfirst⟩
    rw [hzero]
    rfl
  · refine List.pairwise_cons.mpr ⟨fun v hv => ?_, hinOrder⟩
    rw [hzero, firstPlace_cons_ne (hne' v hv)]
    exact Nat.succ_pos _

end ListsUnseen

/-- A scan of the rows lists the values that it has not seen. -/
theorem listsUnseen_distinctValues (column : String) (seen : List Json) (rows : List Record) :
    ListsUnseen column seen rows (distinctValues column seen rows) := by
  induction rows generalizing seen with
  | nil => exact ⟨by simp [distinctValues], .nil, by simp, by simp [distinctValues], .nil⟩
  | cons row rows ih =>
    unfold distinctValues
    change ListsUnseen column seen (row :: rows)
      (if seen.any (·.same (columnValue column row)) then distinctValues column seen rows
        else columnValue column row ::
          distinctValues column (columnValue column row :: seen) rows)
    by_cases hseen : seen.any (·.same (columnValue column row)) = true
    · rw [if_pos hseen]
      obtain ⟨s, hs, hsame⟩ := List.any_eq_true.mp hseen
      exact (ih seen).skip hs hsame
    · rw [if_neg hseen]
      refine (ih _).take fun s hs => ?_
      rw [Bool.eq_false_iff]
      exact fun hsame => hseen (List.any_eq_true.mpr ⟨s, hs, hsame⟩)

theorem Lists.firstPlaces_subset (h : Lists column rows values)
    (hothers : Lists column rows others) :
    ∀ i ∈ values.map (firstPlace column rows), i ∈ others.map (firstPlace column rows) := by
  intro i hi
  obtain ⟨v, hv, rfl⟩ := List.mem_map.mp hi
  obtain ⟨row, hrow, hvalue⟩ := Option.map_eq_some_iff.mp (h.first v hv)
  obtain ⟨w, hw, hsame⟩ := hothers.complete row (List.mem_of_getElem? hrow)
  rw [hvalue] at hsame
  exact List.mem_map.mpr ⟨w, hw, firstPlace_congr hsame⟩

/-- A column has one such list of values. -/
theorem Lists.unique (h : Lists column rows values) (hothers : Lists column rows others) :
    values = others := by
  have hplaces : values.map (firstPlace column rows) = others.map (firstPlace column rows) :=
    (List.pairwise_map.mpr h.inOrder).eq_of_mem_iff (List.pairwise_map.mpr hothers.inOrder)
      fun i => ⟨h.firstPlaces_subset hothers i, hothers.firstPlaces_subset h i⟩
  have hread : ∀ {list : List Json}, Lists column rows list → list.map some =
      (list.map (firstPlace column rows)).map fun i => rows[i]?.map (columnValue column) := by
    intro list hlist
    rw [List.map_map]
    exact List.map_congr_left fun v hv => (hlist.first v hv).symm
  refine List.map_injective_iff.mpr (Option.some_injective Json) ?_
  rw [hread h, hread hothers, hplaces]

/-! ### Selections -/

/-- Whether a selection chooses a row: it matches the filter, if there is one. -/
def Chooses (select : Select) (row : Record) : Prop :=
  ∀ predicate ∈ select.filter, predicate.holds row = true

instance (select : Select) : DecidablePred select.Chooses := fun row =>
  inferInstanceAs (Decidable (∀ predicate ∈ select.filter, predicate.holds row = true))

/-- Whether a list has the chosen rows in order: in that of the rows if no other is asked for. -/
def Arranges (select : Select) (rows arranged : List Record) : Prop :=
  match select.order with
  | some order => order.Arranges (rows.filter (select.Chooses ·)) arranged
  | none => arranged = rows.filter (select.Chooses ·)

/-- What a selection means: the chosen rows in order, or a record for each different value of a
column of theirs, in the order in which the values first occur there. -/
def Means (select : Select) (rows result : List Record) : Prop :=
  match select.distinct with
  | some column => ∃ arranged values, select.Arranges rows arranged ∧
    Lists column arranged values ∧ result = values.map fun value => [(column, value)]
  | none => select.Arranges rows result

theorem matching_eq (select : Select) (rows : List Record) :
    select.matching rows = rows.filter (select.Chooses ·) := by
  cases hfilter : select.filter with
  | none => simp [matching, Chooses, hfilter]
  | some predicate =>
    simp only [matching, hfilter]
    exact List.filter_congr fun row _ => by simp [Chooses, hfilter]

theorem arranges_iff {select : Select} {arranged : List Record} :
    select.Arranges rows arranged ↔ arranged = select.sorted (select.matching rows) := by
  unfold Arranges sorted
  rw [matching_eq]
  cases select.order with
  | none => rfl
  | some order =>
    have hsorted := order.arranges_sort (rows.filter (select.Chooses ·))
    exact ⟨fun h => h.unique hsorted, fun h => h ▸ hsorted⟩

/-- What is computed is what a selection means, and nothing else is. -/
theorem evaluate_eq_iff (select : Select) (rows result : List Record) :
    select.evaluate rows = result ↔ select.Means rows result := by
  simp only [evaluate, Means, arranges_iff]
  cases select.distinct with
  | none => exact eq_comm
  | some column =>
    constructor
    · rintro rfl
      exact ⟨_, _, rfl, listsUnseen_distinctValues column [] _, rfl⟩
    · rintro ⟨arranged, values, rfl, hlists, rfl⟩
      rw [hlists.unique (listsUnseen_distinctValues column [] _)]

end Select
end Planner

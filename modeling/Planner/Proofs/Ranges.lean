import Planner.Proofs.Selection

/-! A condition compares values of one kind only and takes the two zeros for one number, while a
sorted column has all values in one order. Still the rows in a range stand together there. -/
namespace Planner

/-! ### Bounds and the order of a column -/

theorem Double.place_mono {x y : Double} (h : x.strictPlace ≤ y.strictPlace) : x.place ≤ y.place := by
  obtain ⟨negative, bits, _⟩ := x
  obtain ⟨negative', bits', _⟩ := y
  cases negative <;> cases negative' <;> simp [place, strictPlace] at h ⊢ <;> omega

namespace Json

variable {a b c : Option Json} {v w : Json} {o : Ordering}

/-- The number by which a condition compares values of one kind: the two zeros have one place. -/
def conditionPlace : Option Json → Int
  | some (.bool b) => b.toNat
  | some (.number n) => n.toDouble.place
  | _ => 0

/-- The order by the kinds of two values, then by their numbers in a condition, then by their texts. -/
def conditionCompare : Option Json → Option Json → Ordering :=
  compareLex (compareOn kindRank) (compareLex (compareOn conditionPlace) (compareOn sortText))

instance : Std.TransCmp conditionCompare := by
  unfold conditionCompare
  infer_instance

/-- Whether two values are of one kind, and one whose values have a natural order. -/
def Comparable (a b : Option Json) : Prop :=
  kindRank a = kindRank b ∧ 0 < kindRank b ∧ kindRank b < 4

theorem Comparable.exists_compare? (h : Comparable (some v) (some w)) :
    ∃ o, v.compare? w = some o := by
  obtain ⟨hkind, hpos, hlt⟩ := h
  cases v <;> cases w <;> simp [kindRank] at hkind hpos hlt <;> exact ⟨_, rfl⟩

theorem compare?_of_eq_some (h : v.compare? w = some o) :
    Comparable (some v) (some w) ∧ conditionCompare (some v) (some w) = o := by
  unfold compare? at h
  split at h
  case h_1 x y =>
    cases h
    refine ⟨⟨rfl, by simp [kindRank]⟩, ?_⟩
    simp [conditionCompare, compareLex, compareOn, kindRank, conditionPlace, sortText, Double.compare]
  case h_2 x y =>
    cases h
    refine ⟨⟨rfl, by simp [kindRank]⟩, ?_⟩
    simp [conditionCompare, compareLex, compareOn, kindRank, conditionPlace, sortText]
  case h_3 x y =>
    cases h
    refine ⟨⟨rfl, by simp [kindRank]⟩, ?_⟩
    cases x <;> cases y <;> rfl
  case h_4 => cases h

/-- Values of one kind have a natural order, if any, and it is this one. -/
theorem compare?_eq_some_iff : v.compare? w = some o ↔
    Comparable (some v) (some w) ∧ conditionCompare (some v) (some w) = o := by
  refine ⟨compare?_of_eq_some, ?_⟩
  rintro ⟨hcomparable, rfl⟩
  obtain ⟨o, ho⟩ := hcomparable.exists_compare?
  rw [ho, (compare?_of_eq_some ho).2]

theorem compare?_eq_none_iff : v.compare? w = none ↔ ¬ Comparable (some v) (some w) := by
  constructor
  · intro hnone hcomparable
    obtain ⟨o, ho⟩ := hcomparable.exists_compare?
    cases hnone.symm.trans ho
  · intro hnot
    cases hnatural : v.compare? w with
    | none => rfl
    | some o => exact absurd (compare?_of_eq_some hnatural).1 hnot

/-- Values of one kind that are in the order of a sorted column are so in a condition. -/
theorem isLE_conditionCompare (hkind : kindRank a = kindRank b) (h : (sortCompare a b).isLE) :
    (conditionCompare a b).isLE := by
  rw [sortCompare_eq_compareKeys] at h
  have hsame : compare (kindRank a) (kindRank b) = .eq := Nat.compare_eq_eq.mpr hkind
  simp only [compareKeys, conditionCompare, compareLex, compareOn, hsame, Ordering.eq_then] at h ⊢
  rcases a with _ | (_ | _ | x | _ | _ | _) <;> rcases b with _ | (_ | _ | y | _ | _ | _) <;>
    simp [kindRank] at hkind <;> try exact h
  -- two numbers: their texts are empty, and only the places of the zeros differ
  have htexts : compare (sortText (some (.number x))) (sortText (some (.number y))) = .eq := rfl
  rw [htexts, Ordering.then_eq, Std.isLE_compare] at h ⊢
  exact Double.place_mono h

theorem kindRank_mono (h : (sortCompare a b).isLE) : kindRank a ≤ kindRank b := by
  by_contra hgt
  have hrank : compare (kindRank a) (kindRank b) = .gt := Nat.compare_eq_gt.mpr (by omega)
  simp [sortCompare, hrank] at h

end Json

namespace Predicate

open Json

variable {a b c : Option Json} {low high : Json}

theorem atLeast_iff : atLeast low a = true ↔
    Comparable a (some low) ∧ (conditionCompare a (some low)).isGE := by
  cases a with
  | none =>
    simp only [atLeast, Comparable, kindRank, Bool.false_eq_true, false_iff]
    omega
  | some v =>
    cases hnatural : v.compare? low with
    | none => simp [atLeast, hnatural, compare?_eq_none_iff.mp hnatural]
    | some o =>
      obtain ⟨hcomparable, rfl⟩ := compare?_eq_some_iff.mp hnatural
      simp only [atLeast, hnatural, hcomparable, true_and]
      cases conditionCompare (some v) (some low) <;> simp

theorem atMost_iff : atMost high a = true ↔
    Comparable a (some high) ∧ (conditionCompare a (some high)).isLE := by
  cases a with
  | none =>
    simp only [atMost, Comparable, kindRank, Bool.false_eq_true, false_iff]
    omega
  | some v =>
    cases hnatural : v.compare? high with
    | none => simp [atMost, hnatural, compare?_eq_none_iff.mp hnatural]
    | some o =>
      obtain ⟨hcomparable, rfl⟩ := compare?_eq_some_iff.mp hnatural
      simp only [atMost, hnatural, hcomparable, true_and]
      cases conditionCompare (some v) (some high) <;> simp

/-- What stands between two rows in a range is in the range. -/
theorem range_between {column : String} {first row last : Record}
    (hfirst : (sortCompare (first.get? column) (row.get? column)).isLE)
    (hlast : (sortCompare (row.get? column) (last.get? column)).isLE)
    (hlow : (range column low high).holds first = true)
    (hhigh : (range column low high).holds last = true) :
    (range column low high).holds row = true := by
  simp only [holds, Bool.and_eq_true, atLeast_iff, atMost_iff] at hlow hhigh ⊢
  obtain ⟨⟨⟨hkind, hcomparable⟩, hge⟩, -⟩ := hlow
  obtain ⟨⟨⟨hsame, -⟩, -⟩, ⟨hkind', hcomparable'⟩, hle⟩ := hhigh
  -- the kind is that of the bounds, since it lies between that kind and itself
  have hup := kindRank_mono hfirst
  have hdown := kindRank_mono hlast
  have hafter : (conditionCompare (row.get? column) (first.get? column)).isGE :=
    Std.OrientedCmp.isGE_iff_isLE.mpr (isLE_conditionCompare (by omega) hfirst)
  have hbefore : (conditionCompare (row.get? column) (last.get? column)).isLE :=
    isLE_conditionCompare (by omega) hlast
  exact ⟨⟨⟨by omega, hcomparable⟩, Std.TransCmp.isGE_trans hafter hge⟩,
    ⟨by omega, hcomparable'⟩, Std.TransCmp.isLE_trans hbefore hle⟩

end Predicate

/-! ### Blocks -/

/-- Where every element between two chosen ones is chosen, the chosen ones stand together. -/
theorem exists_block {α : Type} {R : α → α → Prop} {p : α → Bool}
    (hbetween : ∀ a b c, R a b → R b c → p a = true → p c = true → p b = true) {items : List α}
    (h : items.Pairwise R) : ∃ before inside after, items = before ++ inside ++ after ∧
      (∀ a ∈ inside, p a = true) ∧ ∀ a ∈ before ++ after, p a = false := by
  induction items with
  | nil => exact ⟨[], [], [], rfl, by simp, by simp⟩
  | cons first rest ih =>
    obtain ⟨hfirst, hrest⟩ := List.pairwise_cons.mp h
    cases hchosen : p first with
    | false =>
      obtain ⟨before, inside, after, rfl, hinside, hoffside⟩ := ih hrest
      exact ⟨first :: before, inside, after, rfl, hinside,
        List.forall_mem_cons.mpr ⟨hchosen, hoffside⟩⟩
    | true =>
      refine ⟨[], first :: rest.takeWhile p, rest.dropWhile p, by simp,
        List.forall_mem_cons.mpr ⟨hchosen, List.all_eq_true.mp List.all_takeWhile⟩, ?_⟩
      rw [List.nil_append]
      cases hdrop : rest.dropWhile p with
      | nil => simp
      | cons next others =>
        -- behind one that is not chosen none is, for it would stand between that and the first
        have hsuffix : (next :: others).Sublist rest := hdrop ▸ (List.dropWhile_suffix p).sublist
        have hnext : p next = false := by
          have hhead := List.head?_dropWhile_not p rest
          simpa [hdrop] using hhead
        refine List.forall_mem_cons.mpr ⟨hnext, fun last hlast => ?_⟩
        rw [Bool.eq_false_iff]
        intro hp
        have hfirstNext := hfirst next (hsuffix.subset (List.mem_cons_self ..))
        have hnextLast := (List.pairwise_cons.mp (hrest.sublist hsuffix)).1 last hlast
        have hin := hbetween first next last hfirstNext hnextLast hchosen hp
        cases hnext.symm.trans hin

namespace Ordered

variable {order : Ordered} {rows : List Record} {low high : Json}

/-- What stands between two rows in a range of the ordered column is in the range, in either
direction. -/
theorem range_between_of_le {first row last : Record} (hfirst : order.le first row = true)
    (hlast : order.le row last = true)
    (hlow : (Predicate.range order.column low high).holds first = true)
    (hhigh : (Predicate.range order.column low high).holds last = true) :
    (Predicate.range order.column low high).holds row = true := by
  rw [le_eq] at hfirst hlast
  unfold compareRows at hfirst hlast
  cases hdirection : order.direction with
  | ascending =>
    simp only [hdirection] at hfirst hlast
    exact Predicate.range_between hfirst hlast hlow hhigh
  | descending =>
    simp only [hdirection, ← Std.OrientedCmp.eq_swap] at hfirst hlast
    exact Predicate.range_between hlast hfirst hhigh hlow

theorem exists_range_block (low high : Json)
    (h : rows.Pairwise fun a b => order.le a b = true) :
    ∃ before inside after, rows = before ++ inside ++ after ∧
      (∀ row ∈ inside, (Predicate.range order.column low high).holds row = true) ∧
      ∀ row ∈ before ++ after, (Predicate.range order.column low high).holds row = false :=
  exists_block (p := fun row => (Predicate.range order.column low high).holds row)
    (fun _ _ _ => range_between_of_le) h

/-- Of rows that are in order by a column those in a range of the column stand together: none
between two of them is out of the range. So a selection by a range gives a block of what it gives, in
the same order, without the range. -/
theorem range_contiguous (low high : Json) (h : rows.Pairwise fun a b => order.le a b = true) :
    (∃ before inside after, rows = before ++ inside ++ after ∧
      (∀ row ∈ inside, (Predicate.range order.column low high).holds row = true) ∧
      ∀ row ∈ before ++ after, (Predicate.range order.column low high).holds row = false) ∧
    ∀ table stored,
      Select.evaluate ⟨table, some (.range order.column low high), some order, none⟩ stored <:+:
        Select.evaluate ⟨table, none, some order, none⟩ stored := by
  refine ⟨exists_range_block low high h, fun table stored => ?_⟩
  change order.sort (stored.filter _) <:+: order.sort stored
  rw [sort_filter]
  obtain ⟨before, inside, after, hsorted, hinside, hoffside⟩ :=
    exists_range_block low high (order.pairwise_le_sort stored)
  obtain ⟨hbefore, hafter⟩ := List.forall_mem_append.mp hoffside
  have hnone : ∀ {rows : List Record}, (∀ row ∈ rows,
      (Predicate.range order.column low high).holds row = false) →
        rows.filter (fun row => (Predicate.range order.column low high).holds row) = [] :=
    fun h => List.filter_eq_nil_iff.mpr fun row hrow => by simp [h row hrow]
  rw [hsorted, List.filter_append, List.filter_append, hnone hbefore, hnone hafter,
    List.filter_eq_self.mpr hinside, List.nil_append, List.append_nil]
  exact ⟨before, after, rfl⟩

/-- A column with values of every kind in descending order, the two zeros among them. -/
def mixedColumn : List Record := [
  [("n", .list [])], [("n", .text "")], [("n", .number (.integer ⟨3, by decide⟩))],
  [("n", .number (.double (.zero false)))], [("n", .number (.double (.zero true)))],
  [("n", .bool true)], [("n", .null)], []]

/-- From the positive zero to three there are three rows: the negative zero counts. -/
theorem range_contiguous_mixedColumn :
    (mixedColumn.Pairwise fun a b => le ⟨"n", .descending⟩ a b = true) ∧
    ∃ before inside after, mixedColumn = before ++ inside ++ after ∧
      (∀ row ∈ inside, (Predicate.range "n" (.number (.double (.zero false)))
        (.number (.integer ⟨3, by decide⟩))).holds row = true) ∧
      ∀ row ∈ before ++ after, (Predicate.range "n" (.number (.double (.zero false)))
        (.number (.integer ⟨3, by decide⟩))).holds row = false := by
  have hordered : mixedColumn.Pairwise fun a b => le ⟨"n", .descending⟩ a b = true := by
    decide +kernel
  exact ⟨hordered, (range_contiguous _ _ hordered).1⟩

end Ordered
end Planner

import Planner.Proofs.Double.Integers
import Planner.Proofs.Selection

/-! Integers are compared by their nearest doubles. So two of them compare as integers do unless
they share a double, and those that share one tie: in a condition as in a sorted column. -/
namespace Planner
namespace Integer

variable {x y low high : Integer}

/-- Whether two integers are different but have one nearest double. -/
def Blurs (x y : Integer) : Prop := x ≠ y ∧ Double.ofInt x.value = Double.ofInt y.value

instance (x y : Integer) : Decidable (x.Blurs y) := inferInstanceAs (Decidable (_ ∧ _))

theorem ext_value (h : x.value = y.value) : x = y := by
  cases x
  cases y
  simp_all

theorem Blurs.symm (h : x.Blurs y) : y.Blurs x := ⟨h.1.symm, h.2.symm⟩

theorem Blurs.le_natAbs (h : x.Blurs y) : 2 ^ 53 ≤ x.value.natAbs :=
  Double.le_natAbs_of_ofInt_eq (fun hvalue => h.1 (ext_value hvalue)) h.2

/-- The order of integers, but for those that share a double, which tie. -/
def compareBlurred (x y : Integer) : Ordering :=
  if x.Blurs y then .eq else compare x.value y.value

theorem compareBlurred_eq (x y : Integer) :
    x.compareBlurred y = (Double.ofInt x.value).totalCompare (Double.ofInt y.value) := by
  rw [Double.totalCompare_ofInt, compareBlurred]
  by_cases hxy : x = y
  · subst hxy
    rw [if_neg (fun h : x.Blurs x => h.1 rfl), if_pos rfl, compare_eq_iff_eq]
  · exact if_congr (and_iff_right hxy) rfl rfl

theorem compareBlurred_ne_gt_iff : x.compareBlurred y ≠ .gt ↔ x.value ≤ y.value ∨ x.Blurs y := by
  unfold compareBlurred
  by_cases h : x.Blurs y
  · simp [h]
  · rw [if_neg h, Ne, compare_gt_iff_gt, not_lt]
    exact (or_iff_left h).symm

theorem compareBlurred_ne_lt_iff : x.compareBlurred y ≠ .lt ↔ y.value ≤ x.value ∨ x.Blurs y := by
  unfold compareBlurred
  by_cases h : x.Blurs y
  · simp [h]
  · rw [if_neg h, Ne, compare_lt_iff_lt, not_lt]
    exact (or_iff_left h).symm

end Integer

namespace Json

/-- An integer as a value. -/
def ofInteger (x : Integer) : Json := .number (.integer x)

theorem compare?_number (a b : Number) :
    compare? (.number a) (.number b) = some (a.toDouble.compare b.toDouble) := rfl

theorem sortCompare_number (a b : Number) :
    sortCompare (some (.number a)) (some (.number b)) = a.toDouble.totalCompare b.toDouble := rfl

theorem compare?_ofInteger (x y : Integer) :
    (ofInteger x).compare? (ofInteger y) = some (x.compareBlurred y) := by
  rw [x.compareBlurred_eq, ← Double.compare_ofInt]
  exact compare?_number (.integer x) (.integer y)

theorem sortCompare_ofInteger (x y : Integer) :
    sortCompare (some (ofInteger x)) (some (ofInteger y)) = x.compareBlurred y := by
  rw [x.compareBlurred_eq]
  exact sortCompare_number (.integer x) (.integer y)

end Json

open Json (ofInteger)

theorem Predicate.atLeast_ofInteger (low x : Integer) :
    atLeast (ofInteger low) (some (ofInteger x)) = true ↔ low.value ≤ x.value ∨ x.Blurs low := by
  rw [← Integer.compareBlurred_ne_lt_iff, atLeast, Json.compare?_ofInteger]
  cases x.compareBlurred low <;> simp

theorem Predicate.atMost_ofInteger (high x : Integer) :
    atMost (ofInteger high) (some (ofInteger x)) = true ↔ x.value ≤ high.value ∨ x.Blurs high := by
  rw [← Integer.compareBlurred_ne_gt_iff, atMost, Json.compare?_ofInteger]
  cases x.compareBlurred high <;> simp

/-- Integers are compared and sorted in their order, but for those that share a double, which are
far from zero and tie. So a range has the integers from its lower to its upper bound and those that
share a double with one of them, and in a sorted list an integer stands before a smaller one, or
after it if the order is descending, only if the two share a double. -/
theorem integers_ordered (x y low high : Integer) (column : String) (row : Record)
    (order : Ordered) (rows : List Record) :
    (ofInteger x).compare? (ofInteger y) =
      some (if x.Blurs y then .eq else compare x.value y.value) ∧
    Json.sortCompare (some (ofInteger x)) (some (ofInteger y)) =
      (if x.Blurs y then .eq else compare x.value y.value) ∧
    (x.Blurs y → 2 ^ 53 ≤ x.value.natAbs ∧ 2 ^ 53 ≤ y.value.natAbs) ∧
    (row.get? column = some (ofInteger x) →
      ((Predicate.range column (ofInteger low) (ofInteger high)).holds row = true ↔
        (low.value ≤ x.value ∨ x.Blurs low) ∧ (x.value ≤ high.value ∨ x.Blurs high))) ∧
    (order.sort rows).Pairwise fun a b => ∀ m n : Integer,
      a.get? order.column = some (ofInteger m) → b.get? order.column = some (ofInteger n) →
      match order.direction with
      | .ascending => m.value ≤ n.value ∨ m.Blurs n
      | .descending => n.value ≤ m.value ∨ m.Blurs n := by
  refine ⟨Json.compare?_ofInteger x y, Json.sortCompare_ofInteger x y,
    fun h => ⟨h.le_natAbs, h.symm.le_natAbs⟩, fun hx => ?_, ?_⟩
  · rw [Predicate.holds, hx, Bool.and_eq_true, Predicate.atLeast_ofInteger,
      Predicate.atMost_ofInteger]
  · refine (order.arranges_sort rows).inOrder.imp fun {a b} hab m n hm hn => ?_
    unfold Ordered.compareRows at hab
    rw [hm, hn, Json.sortCompare_ofInteger] at hab
    cases hdirection : order.direction with
    | ascending =>
      simp only [hdirection] at hab
      exact Integer.compareBlurred_ne_gt_iff.mp hab
    | descending =>
      simp only [hdirection] at hab
      refine Integer.compareBlurred_ne_lt_iff.mp fun hlt => hab ?_
      rw [hlt]
      rfl

/-- A column of a seven and a minus two, in a range and sorted. -/
theorem integers_ordered_seven :
    (ofInteger ⟨7, by decide⟩).compare? (ofInteger ⟨-2, by decide⟩) = some .gt ∧
    (Predicate.range "n" (ofInteger ⟨7, by decide⟩) (ofInteger ⟨9, by decide⟩)).holds
      [("n", ofInteger ⟨7, by decide⟩)] = true := by
  obtain ⟨hcompare, -, -, hrange, -⟩ := integers_ordered ⟨7, by decide⟩ ⟨-2, by decide⟩
    ⟨7, by decide⟩ ⟨9, by decide⟩ "n" [("n", ofInteger ⟨7, by decide⟩)] ⟨"n", .ascending⟩ []
  refine ⟨hcompare.trans (by decide +kernel), (hrange rfl).mpr ⟨.inl (by decide), .inl (by decide)⟩⟩

/-- The first integer that has no double of its own: it ties with the one before it, is in the range
of that one alone, and stays before it in an ascending list. -/
theorem neighbours_not_ordered :
    let x : Integer := ⟨9007199254740993, by decide⟩
    let y : Integer := ⟨9007199254740992, by decide⟩
    compare x.value y.value = .gt ∧ (ofInteger x).same (ofInteger y) = false ∧
    (ofInteger x).compare? (ofInteger y) = some .eq ∧
    Json.sortCompare (some (ofInteger x)) (some (ofInteger y)) = .eq ∧
    (Predicate.range "n" (ofInteger y) (ofInteger y)).holds [("n", ofInteger x)] = true ∧
    Ordered.sort ⟨"n", .ascending⟩ [[("n", ofInteger x)], [("n", ofInteger y)]] =
      [[("n", ofInteger x)], [("n", ofInteger y)]] := by
  refine ⟨by decide, by decide +kernel, by decide +kernel, by decide +kernel, by decide +kernel, ?_⟩
  exact List.mergeSort_of_pairwise (by decide +kernel)

end Planner

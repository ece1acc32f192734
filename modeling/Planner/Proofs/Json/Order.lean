import Mathlib.Tactic
import Planner.Json.Order

/-! The order of a sorted column is that of three keys, one after the other: the kind of a value, a
number, and a text. So it is a total preorder, and values that compare equal compare alike with all
others. -/
namespace Planner.Json

/-- The number by which values of one kind are ordered: false before true, doubles by place. -/
def sortPlace : Option Json → Int
  | some (.bool b) => b.toNat
  | some (.number n) => n.toDouble.strictPlace
  | _ => 0

/-- The text by which values of one kind are ordered that have no number. -/
def sortText : Option Json → String
  | some (.text s) => s
  | some (.list items) => (Json.list items).toText
  | some (.object fields) => (Json.object fields).toText
  | _ => ""

/-- The order by the kinds of two values, then by their numbers, then by their texts. -/
def compareKeys : Option Json → Option Json → Ordering :=
  compareLex (compareOn kindRank) (compareLex (compareOn sortPlace) (compareOn sortText))

theorem compareKeys_of_texts {a b : Option Json} (hkind : kindRank a = kindRank b)
    (hplace : sortPlace a = sortPlace b) : compareKeys a b = compare (sortText a) (sortText b) := by
  simp [compareKeys, compareLex, compareOn, hkind, hplace]

theorem compareKeys_of_places {a b : Option Json} (hkind : kindRank a = kindRank b)
    (htext : sortText a = sortText b) : compareKeys a b = compare (sortPlace a) (sortPlace b) := by
  simp [compareKeys, compareLex, compareOn, hkind, htext]

/-- Missing values and nulls have neither. -/
theorem compareKeys_of_nulls {a b : Option Json} (ha : kindRank a = 0) (hb : kindRank b = 0) :
    compareKeys a b = .eq := by
  have hnull : ∀ {c : Option Json}, kindRank c = 0 → sortPlace c = 0 ∧ sortText c = "" := by
    rintro (_ | c) hc
    · exact ⟨rfl, rfl⟩
    · cases c with
      | null => exact ⟨rfl, rfl⟩
      | bool | number | text | list | object => simp [kindRank] at hc
  rw [compareKeys_of_places (ha.trans hb.symm) ((hnull ha).2.trans (hnull hb).2.symm),
    (hnull ha).1, (hnull hb).1]
  rfl

theorem sortCompare_of_kind_ne {a b : Option Json} (h : kindRank a ≠ kindRank b) :
    sortCompare a b = compareKeys a b := by
  have hne : compare (kindRank a) (kindRank b) ≠ .eq := fun heq => h (Nat.compare_eq_eq.mp heq)
  unfold sortCompare compareKeys compareLex compareOn
  cases hkinds : compare (kindRank a) (kindRank b) with
  | eq => exact absurd hkinds hne
  | lt | gt => rfl

/-- Only values of one kind are told apart by their numbers and texts. -/
theorem sortCompare_eq_compareKeys (a b : Option Json) : sortCompare a b = compareKeys a b := by
  by_cases hkind : kindRank a = kindRank b
  · have hrank : compare (kindRank a) (kindRank b) = .eq := Nat.compare_eq_eq.mpr hkind
    unfold sortCompare
    rw [hrank, Ordering.eq_then]
    split
    case h_1 a b => exact (compareKeys_of_places hkind rfl).symm
    case h_2 a b => exact (compareKeys_of_texts hkind rfl).symm
    case h_3 a b =>
      rw [compareKeys_of_places hkind rfl]
      cases a <;> cases b <;> rfl
    case h_4 items b =>
      cases b with
      | list | object => exact (compareKeys_of_texts hkind rfl).symm
      | null | bool | number | text => simp [kindRank] at hkind
    case h_5 fields b =>
      cases b with
      | list | object => exact (compareKeys_of_texts hkind rfl).symm
      | null | bool | number | text => simp [kindRank] at hkind
    case h_6 hnumbers htexts hbools hlist hobject =>
      have hnone : kindRank a = 0 := by
        rcases a with _ | (_ | _ | _ | _ | _ | _) <;>
          rcases b with _ | (_ | _ | _ | _ | _ | _) <;> simp_all [kindRank]
      exact (compareKeys_of_nulls hnone (hkind ▸ hnone)).symm
  · exact sortCompare_of_kind_ne hkind

instance : Std.TransCmp sortCompare := by
  have hkeys : sortCompare = compareKeys := funext fun a => funext (sortCompare_eq_compareKeys a)
  rw [hkeys]
  unfold compareKeys
  infer_instance

/-- The order of a sorted column is a total preorder: every value ties with itself, two values
compare one way round as the reverse of the other, and what is not after another is not after those
that the other is not after. So the ties are an equivalence, and values that tie compare alike with
every other. -/
theorem sortCompare_preorder (a b c : Option Json) :
    sortCompare a a = .eq ∧ sortCompare b a = (sortCompare a b).swap ∧
    (sortCompare a b ≠ .gt → sortCompare b c ≠ .gt → sortCompare a c ≠ .gt) ∧
    (sortCompare a b = .eq → sortCompare b c = .eq → sortCompare a c = .eq) ∧
    (sortCompare a b = .eq →
      sortCompare a c = sortCompare b c ∧ sortCompare c a = sortCompare c b) := by
  refine ⟨Std.ReflCmp.compare_self, Std.OrientedCmp.eq_swap, fun hab hbc => ?_,
    fun hab hbc => Std.TransCmp.eq_trans hab hbc, fun hab => ?_⟩
  · exact Ordering.isLE_iff_ne_gt.mp
      (Std.TransCmp.isLE_trans (Ordering.isLE_iff_ne_gt.mpr hab) (Ordering.isLE_iff_ne_gt.mpr hbc))
  · exact ⟨Std.TransCmp.congr_left hab, Std.TransCmp.congr_right hab⟩

/-- A missing value ties with null, and so it stands where null stands: not after a number. -/
theorem sortCompare_preorder_missing :
    sortCompare none (some .null) = .eq ∧
    sortCompare (some .null) (some (.number (.double (.zero true)))) ≠ .gt ∧
    sortCompare none (some (.number (.double (.zero true)))) ≠ .gt ∧
    sortCompare none (some (.list [])) = sortCompare (some .null) (some (.list [])) := by
  obtain ⟨-, -, hnotAfter, -, -⟩ :=
    sortCompare_preorder none (some .null) (some (.number (.double (.zero true))))
  obtain ⟨-, -, -, -, halike⟩ := sortCompare_preorder none (some .null) (some (.list []))
  have htie : sortCompare none (some .null) = .eq := by decide
  have hnumber : sortCompare (some .null) (some (.number (.double (.zero true)))) ≠ .gt := by decide
  exact ⟨htie, hnumber, hnotAfter (by decide) hnumber, (halike htie).1⟩

end Planner.Json

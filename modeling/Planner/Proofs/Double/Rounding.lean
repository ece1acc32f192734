import Mathlib.Tactic
import Planner.Double.Rounding

/-! How far rounding to a double moves a quotient, and which quotients are not too large. -/
namespace Planner

theorem roundHalfEven_le (num : Nat) {den : Nat} (hd : 0 < den) :
    2 * (roundHalfEven num den * den) ≤ 2 * num + den := by
  have hm := Nat.div_add_mod num den
  have hl := Nat.mod_lt num hd
  have hs : (num / den + 1) * den = den * (num / den) + den := by ring
  have hq : num / den * den = den * (num / den) := Nat.mul_comm _ _
  simp only [roundHalfEven]
  split_ifs with h₁ h₂
  · omega
  · omega
  · rcases Nat.mod_two_eq_zero_or_one (num / den) with hp | hp
    · rw [hp, Nat.add_zero]
      omega
    · rw [hp]
      omega

theorem roundHalfEven_lt {num den n : Nat} (hd : 0 < den) (h : 2 * num + den < 2 * (n * den)) :
    roundHalfEven num den < n := by
  by_contra hn
  have hr := roundHalfEven_le num hd
  have hm : n * den ≤ roundHalfEven num den * den := Nat.mul_le_mul_right den (by omega)
  omega

theorem div_le_roundHalfEven (num den : Nat) : num / den ≤ roundHalfEven num den := by
  simp only [roundHalfEven]
  split_ifs <;> omega

namespace Double

/-- The weight of the last bit of a rounded quotient, as a power of two. -/
def quotientScale (num den : Nat) : Nat := (num / den).log2 - 52

/-- The significand of a rounded quotient. -/
def quotientSignificand (num den : Nat) : Nat :=
  roundHalfEven num (den * 2 ^ quotientScale num den)

theorem nearestBits_eq (num den : Nat) :
    nearestBits num den = quotientScale num den * 2 ^ 52 + quotientSignificand num den := rfl

theorem quotient_lt (num : Nat) {den : Nat} (hd : 0 < den) :
    num < 2 ^ 53 * (den * 2 ^ quotientScale num den) := by
  have hs : (num / den).log2 + 1 ≤ 53 + quotientScale num den := by
    unfold quotientScale
    omega
  have hp : num / den < 2 ^ 53 * 2 ^ quotientScale num den := by
    rw [← Nat.pow_add]
    exact Nat.lt_of_lt_of_le Nat.lt_log2_self (Nat.pow_le_pow_right (by decide) hs)
  rw [Nat.div_lt_iff_lt_mul hd] at hp
  calc num < 2 ^ 53 * 2 ^ quotientScale num den * den := hp
    _ = 2 ^ 53 * (den * 2 ^ quotientScale num den) := by ring

theorem quotientSignificand_le (num : Nat) {den : Nat} (hd : 0 < den) :
    quotientSignificand num den ≤ 2 ^ 53 := by
  have hp : 0 < den * 2 ^ quotientScale num den := Nat.mul_pos hd (Nat.two_pow_pos _)
  have hq := quotient_lt num hd
  exact Nat.le_of_lt_succ (roundHalfEven_lt hp (by omega))

/-- The scale is the least one at which the quotient has 53 bits, unless it has fewer anyway. -/
theorem quotientScale_eq_zero_or (num den : Nat) :
    quotientScale num den = 0 ∨ 2 ^ 52 * (den * 2 ^ quotientScale num den) ≤ num := by
  by_cases hs : quotientScale num den = 0
  · exact Or.inl hs
  right
  have hne : num / den ≠ 0 := by
    intro h
    simp [quotientScale, h] at hs
  have hl : 2 ^ (num / den).log2 ≤ num / den := Nat.log2_self_le hne
  have he : (num / den).log2 = 52 + quotientScale num den := by
    unfold quotientScale at *
    omega
  rw [he, pow_add] at hl
  calc 2 ^ 52 * (den * 2 ^ quotientScale num den)
      = den * (2 ^ 52 * 2 ^ quotientScale num den) := by ring
    _ ≤ den * (num / den) := Nat.mul_le_mul_left den hl
    _ ≤ num := Nat.mul_div_le num den

theorem quotientScale_le {num den k : Nat} (hd : 0 < den)
    (h : num < den * ((2 ^ 54 - 1) * 2 ^ k)) : quotientScale num den ≤ k + 1 := by
  have hq : num / den < (2 ^ 54 - 1) * 2 ^ k :=
    (Nat.div_lt_iff_lt_mul hd).mpr (by rwa [Nat.mul_comm])
  have hp : num / den < 2 ^ (54 + k) := by
    rw [pow_add]
    exact Nat.lt_of_lt_of_le hq (Nat.mul_le_mul_right _ (by decide))
  by_cases hz : num / den = 0
  · simp [quotientScale, hz]
  · have := (Nat.log2_lt hz).mpr hp
    unfold quotientScale
    omega

/-- A quotient half a unit above the last significand of a scale is still rounded down to it. -/
theorem nearestBits_lt {num den k : Nat} (hd : 0 < den)
    (h : num < den * ((2 ^ 54 - 1) * 2 ^ k)) : nearestBits num den < (k + 3) * 2 ^ 52 := by
  have hs := quotientScale_le hd h
  have hr := quotientSignificand_le num hd
  rw [nearestBits_eq]
  rcases Nat.lt_or_eq_of_le hs with hs | hs
  · have hm : quotientScale num den * 2 ^ 52 ≤ k * 2 ^ 52 := Nat.mul_le_mul_right _ (by omega)
    omega
  · have hlt : quotientSignificand num den < 2 ^ 53 := by
      have hp : 0 < den * 2 ^ (k + 1) := Nat.mul_pos hd (Nat.two_pow_pos _)
      have he : 2 * (den * ((2 ^ 54 - 1) * 2 ^ k)) =
          (2 ^ 54 - 1) * (den * 2 ^ (k + 1)) := by
        rw [pow_succ 2 k]
        ring
      have hw : 2 * (2 ^ 53 * (den * 2 ^ (k + 1))) =
          (2 ^ 54 - 1) * (den * 2 ^ (k + 1)) + den * 2 ^ (k + 1) := by ring
      unfold quotientSignificand
      rw [hs]
      apply roundHalfEven_lt hp
      rw [hw, ← he]
      exact Nat.add_lt_add_right (Nat.mul_lt_mul_of_pos_left h (by decide)) _
    rw [hs]
    omega

/-- The units of the double whose bits are a scale and a significand that may carry into it. -/
theorem units_of_bits {x : Double} {s r : Nat} (hb : x.bits = s * 2 ^ 52 + r)
    (hr : r ≤ 2 ^ 53) (hs : s = 0 ∨ 2 ^ 52 ≤ r) : x.units = r * 2 ^ s := by
  simp only [units, significand, scale, Nat.pow_eq, hb]
  rcases Nat.lt_or_ge r (2 ^ 52) with hlt | hge
  · have h0 : s = 0 := by omega
    subst h0
    have hdiv : (0 * 2 ^ 52 + r) / 2 ^ 52 - 1 = 0 := by omega
    rw [hdiv, if_pos (by omega)]
    omega
  · rw [if_neg (by omega)]
    rcases Nat.lt_or_eq_of_le hr with hr | hr
    · have hdiv : (s * 2 ^ 52 + r) / 2 ^ 52 - 1 = s := by omega
      have hmod : (s * 2 ^ 52 + r) % 2 ^ 52 + 2 ^ 52 = r := by omega
      rw [hdiv, hmod]
    · have hdiv : (s * 2 ^ 52 + r) / 2 ^ 52 - 1 = s + 1 := by omega
      have hmod : (s * 2 ^ 52 + r) % 2 ^ 52 + 2 ^ 52 = 2 ^ 52 := by omega
      rw [hdiv, hmod, hr]
      ring

theorem units_lt {x : Double} {k : Nat} (hb : x.bits < (k + 3) * 2 ^ 52) :
    x.units < (2 ^ 54 - 1) * 2 ^ k := by
  have hs : x.scale ≤ k + 1 := by
    simp only [scale, Nat.pow_eq]
    omega
  have hr : x.significand < 2 ^ 53 := by
    simp only [significand, Nat.pow_eq]
    split_ifs <;> omega
  calc x.units = x.significand * 2 ^ x.scale := rfl
    _ ≤ (2 ^ 53 - 1) * 2 ^ (k + 1) :=
      Nat.mul_le_mul (by omega) (Nat.pow_le_pow_right (by decide) hs)
    _ = (2 ^ 54 - 2) * 2 ^ k := by
      rw [pow_succ 2 k]
      ring
    _ < (2 ^ 54 - 1) * 2 ^ k := Nat.mul_lt_mul_of_pos_right (by decide) (Nat.two_pow_pos k)

section Quotient

variable {num den : Nat} (h : 2 ^ 52 * den ≤ num)
include h

theorem quotient_ge : 2 ^ 52 * (den * 2 ^ quotientScale num den) ≤ num := by
  rcases quotientScale_eq_zero_or num den with hs | hs
  · rw [hs]
    simpa using h
  · exact hs

theorem quotientSignificand_ge (hd : 0 < den) : 2 ^ 52 ≤ quotientSignificand num den := by
  have hp : 0 < den * 2 ^ quotientScale num den := Nat.mul_pos hd (Nat.two_pow_pos _)
  exact Nat.le_trans ((Nat.le_div_iff_mul_le hp).mpr (quotient_ge h)) (div_le_roundHalfEven _ _)

/-- A quotient of 53 bits or more is rounded up by one part in `2 ^ 53` at most. -/
theorem quotientSignificand_mul_le (hd : 0 < den) :
    2 ^ 53 * (quotientSignificand num den * 2 ^ quotientScale num den * den) ≤
      (2 ^ 53 + 1) * num := by
  have hp : 0 < den * 2 ^ quotientScale num den := Nat.mul_pos hd (Nat.two_pow_pos _)
  have hr := roundHalfEven_le num hp
  have hq := quotient_ge h
  have he : quotientSignificand num den * 2 ^ quotientScale num den * den =
      quotientSignificand num den * (den * 2 ^ quotientScale num den) := by ring
  rw [he]
  unfold quotientSignificand
  omega

/-- Rounding does not leave the power of two that a quotient has reached. -/
theorem two_pow_le_quotientSignificand {k : Nat} (hd : 0 < den) (hk : 2 ^ k * den ≤ num) :
    2 ^ k ≤ quotientSignificand num den * 2 ^ quotientScale num den := by
  have hq : 2 ^ k ≤ num / den := (Nat.le_div_iff_mul_le hd).mpr hk
  have hne : num / den ≠ 0 := by
    have := Nat.two_pow_pos k
    omega
  have hl : k ≤ (num / den).log2 := (Nat.le_log2 hne).mpr hq
  have hs : k ≤ 52 + quotientScale num den := by
    unfold quotientScale
    omega
  calc 2 ^ k ≤ 2 ^ (52 + quotientScale num den) := Nat.pow_le_pow_right (by decide) hs
    _ = 2 ^ 52 * 2 ^ quotientScale num den := pow_add 2 52 _
    _ ≤ quotientSignificand num den * 2 ^ quotientScale num den :=
      Nat.mul_le_mul_right _ (quotientSignificand_ge h hd)

end Quotient

/-- From this many units of `2 ^ -1074` on, a quotient rounds to no finite double. -/
def unitLimit : Nat := (2 ^ 54 - 1) * 2 ^ 2044

theorem units_lt_unitLimit (x : Double) : x.units < unitLimit := units_lt (k := 2044) x.finite

theorem ofUnits?_eq_some {num den : Nat} (negative : Bool) (hd : 0 < den)
    (h : num < den * unitLimit) :
    ∃ x, ofUnits? negative num den = some x ∧ x.negative = negative ∧
      x.units = quotientSignificand num den * 2 ^ quotientScale num den := by
  have hb : nearestBits num den < 0x7FF0000000000000 := nearestBits_lt (k := 2044) hd h
  refine ⟨⟨negative, nearestBits num den, hb⟩, dif_pos hb, rfl, ?_⟩
  apply units_of_bits (nearestBits_eq num den) (quotientSignificand_le num hd)
  rcases quotientScale_eq_zero_or num den with hs | hs
  · exact Or.inl hs
  · right
    have hp : 0 < den * 2 ^ quotientScale num den := Nat.mul_pos hd (Nat.two_pow_pos _)
    exact Nat.le_trans ((Nat.le_div_iff_mul_le hp).mpr hs) (div_le_roundHalfEven _ _)

/-- A quotient by a number that is not below one is not too large. -/
theorem ofUnits?_quotient (negative : Bool) (x : Double) {unit den : Nat} (hu : 0 < unit)
    (hd : unit ≤ den) : ∃ z, ofUnits? negative (x.units * unit) den = some z := by
  have hp : 0 < den := Nat.lt_of_lt_of_le hu hd
  have h : x.units * unit < den * unitLimit :=
    calc x.units * unit ≤ x.units * den := Nat.mul_le_mul_left _ hd
      _ = den * x.units := Nat.mul_comm _ _
      _ < den * unitLimit := Nat.mul_lt_mul_of_pos_left (units_lt_unitLimit x) hp
  obtain ⟨z, hz, -⟩ := ofUnits?_eq_some negative hp h
  exact ⟨z, hz⟩

theorem pow_two_pos (k : Nat) : 0 < Nat.pow 2 k := Nat.two_pow_pos k

theorem div?_isSome {x y : Double} (hy : Nat.pow 2 1074 ≤ y.units) : ∃ z, x.div? y = some z := by
  have hp := pow_two_pos 1074
  unfold div?
  generalize Nat.pow 2 1074 = unit at hp hy ⊢
  exact ofUnits?_quotient _ x hp hy

theorem mul?_isSome {x y : Double} (h : x.units * y.units < Nat.pow 2 1074 * unitLimit) :
    ∃ z, x.mul? y = some z := by
  have hp := pow_two_pos 1074
  unfold mul?
  generalize Nat.pow 2 1074 = unit at hp h ⊢
  obtain ⟨z, hz, -⟩ := ofUnits?_eq_some (x.negative != y.negative) hp h
  exact ⟨z, hz⟩

theorem ofUnits?_whole {n k : Nat} (hk : 52 ≤ k) (hn : 0 < n)
    (h : n * Nat.pow 2 k < unitLimit) :
    ∃ x, ofUnits? false (n * Nat.pow 2 k) 1 = some x ∧ Nat.pow 2 k ≤ x.units ∧
      2 ^ 53 * x.units ≤ (2 ^ 53 + 1) * (n * Nat.pow 2 k) := by
  have hle : Nat.pow 2 k ≤ n * Nat.pow 2 k := Nat.le_mul_of_pos_left _ hn
  have h52 : 2 ^ 52 * 1 ≤ n * Nat.pow 2 k := by
    rw [Nat.mul_one]
    exact Nat.le_trans (Nat.pow_le_pow_right (by decide) hk) hle
  obtain ⟨x, hx, -, hu⟩ := ofUnits?_eq_some false Nat.one_pos
    (show n * Nat.pow 2 k < 1 * unitLimit by rwa [Nat.one_mul])
  refine ⟨x, hx, ?_, ?_⟩
  · rw [hu]
    exact two_pow_le_quotientSignificand h52 Nat.one_pos (by rwa [Nat.mul_one])
  · have hm := quotientSignificand_mul_le h52 Nat.one_pos
    rwa [Nat.mul_one, ← hu] at hm

/-- A whole number is read as a double that is at most one part in `2 ^ 53` above it. -/
theorem ofQuotient?_whole {n : Nat} (hn : 0 < n) (h : n * Nat.pow 2 1074 < unitLimit) :
    ∃ x, ofQuotient? false n 1 = some x ∧ Nat.pow 2 1074 ≤ x.units ∧
      2 ^ 53 * x.units ≤ (2 ^ 53 + 1) * (n * Nat.pow 2 1074) := by
  obtain ⟨k, hk, he⟩ : ∃ k, 52 ≤ k ∧ k = 1074 := ⟨1074, by decide, rfl⟩
  unfold ofQuotient?
  rw [← he] at h ⊢
  exact ofUnits?_whole hk hn h

end Double
end Planner

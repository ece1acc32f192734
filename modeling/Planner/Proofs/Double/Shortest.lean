import Mathlib.Tactic
import Planner.Double.Shortest

/-! The shortest decimal of a double: how many digits it has, and that it lies within the reals
that round to the double. -/
namespace Planner.Double

/-- The decimal is not above so many quarters of the unit `2 ^ -1074`. -/
def Decimal.AtMost (d : Decimal) (high : Nat) : Prop :=
  d.digits * (4 * Nat.pow 2 1074 * Nat.pow 10 d.exponent.toNat) ≤
    high * Nat.pow 10 (-d.exponent).toNat

theorem Interval.le_high {i : Interval} {num den : Nat} (h : i.holds num den = true) :
    num ≤ i.high * den := by
  unfold holds at h
  split at h <;> simp only [Bool.and_eq_true, decide_eq_true_eq] at h <;> omega

theorem Interval.low_le {i : Interval} {num den : Nat} (h : i.holds num den = true) :
    i.low * den ≤ num := by
  unfold holds at h
  split at h <;> simp only [Bool.and_eq_true, decide_eq_true_eq] at h <;> omega

theorem interval_low_pos {x : Double} (hx : 0 < x.units) : 0 < x.interval.low := by
  have hs : Nat.pow 2 x.scale ≤ x.units := by
    have hr : 0 < x.significand := Nat.pos_of_mul_pos_right hx
    exact Nat.le_mul_of_pos_left _ hr
  have hp : 0 < Nat.pow 2 x.scale := Nat.pow_pos (by decide)
  simp only [interval]
  split_ifs <;> omega

theorem interval_high (x : Double) : x.interval.high = 4 * x.units + 2 * Nat.pow 2 x.scale := rfl

/-- What a grid gives is a neighbour of the double on it and rounds to the double. -/
theorem onGrid_eq_some {x : Double} {e : Int} {d : Decimal} (h : x.onGrid e = some d) :
    d.exponent = e ∧
    d.digits ≤ x.interval.middle * Nat.pow 10 (-e).toNat /
      (4 * Nat.pow 2 1074 * Nat.pow 10 e.toNat) + 1 ∧
    x.interval.holds (d.digits * (4 * Nat.pow 2 1074 * Nat.pow 10 e.toNat))
      (Nat.pow 10 (-e).toNat) = true := by
  unfold onGrid at h
  generalize 4 * Nat.pow 2 1074 * Nat.pow 10 e.toNat = step at h ⊢
  generalize Nat.pow 10 (-e).toNat = den at h ⊢
  simp only at h
  generalize x.interval.middle * den / step = below at h ⊢
  split at h
  · rename_i hb
    obtain rfl := Option.some.inj h
    rw [Bool.and_eq_true] at hb
    refine ⟨rfl, ?_, ?_⟩
    · dsimp only
      split_ifs <;> omega
    · dsimp only
      split_ifs
      · exact hb.1
      · exact hb.2
      · exact hb.1
      · exact hb.2
  · split at h
    · rename_i hb
      obtain rfl := Option.some.inj h
      exact ⟨rfl, Nat.le_succ _, hb⟩
    · split at h
      · rename_i hb
        obtain rfl := Option.some.inj h
        exact ⟨rfl, Nat.le_refl _, hb⟩
      · cases h

theorem trimmed_digits_le (n : Nat) (d : Decimal) : (d.trimmed n).digits ≤ d.digits := by
  induction n generalizing d with
  | zero => exact Nat.le_refl _
  | succ n ih =>
    unfold Decimal.trimmed
    split
    · exact Nat.le_trans (ih _) (Nat.div_le_self _ _)
    · exact Nat.le_refl _

theorem trimmed_digits_pos (n : Nat) {d : Decimal} (h : 0 < d.digits) :
    0 < (d.trimmed n).digits := by
  induction n generalizing d with
  | zero => exact h
  | succ n ih =>
    unfold Decimal.trimmed
    split
    · apply ih
      change 0 < d.digits / 10
      omega
    · exact h

/-- Moving one zero from the digits into the exponent leaves the value as it is. -/
theorem atMost_div_ten {d : Decimal} {high : Nat} (h0 : d.digits % 10 = 0)
    (h : d.AtMost high) : Decimal.AtMost ⟨d.digits / 10, d.exponent + 1⟩ high := by
  obtain ⟨k, hk⟩ := Nat.dvd_of_mod_eq_zero h0
  have hd : d.digits / 10 = k := by omega
  unfold Decimal.AtMost at h ⊢
  dsimp only
  rw [hd]
  rw [hk] at h
  generalize Nat.pow 2 1074 = p at h ⊢
  simp only [Nat.pow_eq] at h ⊢
  rcases Int.lt_or_le d.exponent 0 with he | he
  · have h1 : d.exponent.toNat = 0 := by omega
    have h2 : (d.exponent + 1).toNat = 0 := by omega
    have h3 : (-d.exponent).toNat = (-(d.exponent + 1)).toNat + 1 := by omega
    rw [h1, h3, pow_succ] at h
    rw [h2]
    generalize 10 ^ (-(d.exponent + 1)).toNat = w at h ⊢
    nlinarith
  · have h1 : (d.exponent + 1).toNat = d.exponent.toNat + 1 := by omega
    have h2 : (-d.exponent).toNat = 0 := by omega
    have h3 : (-(d.exponent + 1)).toNat = 0 := by omega
    rw [h2] at h
    rw [h1, h3, pow_succ]
    calc k * (4 * p * (10 ^ d.exponent.toNat * 10))
        = 10 * k * (4 * p * 10 ^ d.exponent.toNat) := by ring
      _ ≤ high * 10 ^ 0 := h

theorem trimmed_atMost (n : Nat) {d : Decimal} {high : Nat} (h : d.AtMost high) :
    (d.trimmed n).AtMost high := by
  induction n generalizing d with
  | zero => exact h
  | succ n ih =>
    unfold Decimal.trimmed
    split
    · rename_i hc
      exact ih (atMost_div_ten hc.2 h)
    · exact h

/-- The neighbour below on the grid of the `c`-th digit after the first has `c + 1` digits. -/
theorem grid_quotient_lt {u p t c L : Nat} {e : Int} (hp : 0 < p)
    (hL : u * Nat.pow 10 t / p < 10 ^ L) (he : e = (L : Int) - (t + 1) - c) (hc : c ≤ 16) :
    4 * u * Nat.pow 10 (-e).toNat / (4 * p * Nat.pow 10 e.toNat) < 10 ^ 17 := by
  simp only [Nat.pow_eq] at hL ⊢
  rw [Nat.div_lt_iff_lt_mul hp] at hL
  rw [Nat.div_lt_iff_lt_mul (by positivity)]
  have hpow : ∀ n, L + (-e).toNat = n + t → u * 10 ^ (-e).toNat < 10 ^ n * p := by
    intro n hn
    have hm := Nat.mul_lt_mul_of_pos_right hL (Nat.pow_pos (n := (-e).toNat) (Nat.succ_pos 9))
    have hl : u * 10 ^ t * 10 ^ (-e).toNat = u * 10 ^ (-e).toNat * 10 ^ t := by ac_rfl
    have hr : 10 ^ L * p * 10 ^ (-e).toNat = 10 ^ n * p * 10 ^ t := by
      calc 10 ^ L * p * 10 ^ (-e).toNat = 10 ^ L * 10 ^ (-e).toNat * p := by ac_rfl
        _ = 10 ^ n * 10 ^ t * p := by rw [← pow_add, ← pow_add, hn]
        _ = 10 ^ n * p * 10 ^ t := by ac_rfl
    rw [hl, hr] at hm
    exact Nat.lt_of_mul_lt_mul_right hm
  have hu := hpow (e.toNat + 1 + c) (by omega)
  have ht : 10 ^ (e.toNat + 1 + c) ≤ 10 ^ 17 * 10 ^ e.toNat := by
    rw [← pow_add]
    exact Nat.pow_le_pow_right (by decide) (by omega)
  calc 4 * u * 10 ^ (-e).toNat = 4 * (u * 10 ^ (-e).toNat) := by ac_rfl
    _ < 4 * (10 ^ (e.toNat + 1 + c) * p) := Nat.mul_lt_mul_of_pos_left hu (by decide)
    _ ≤ 4 * (10 ^ 17 * 10 ^ e.toNat * p) :=
      Nat.mul_le_mul_left 4 (Nat.mul_le_mul_right p ht)
    _ = 10 ^ 17 * (4 * p * 10 ^ e.toNat) := by ac_rfl

theorem onGrid_digits_le {x : Double} {c : Nat} {d : Decimal} (hc : c ≤ 16)
    (h : x.onGrid (x.leadingExponent - (c : Nat)) = some d) : d.digits ≤ 10 ^ 17 := by
  have hd := (onGrid_eq_some h).2.1
  have hL : x.units * Nat.pow 10 400 / Nat.pow 2 1074 <
      10 ^ (Nat.toDigits 10 (x.units * Nat.pow 10 400 / Nat.pow 2 1074)).length :=
    (Nat.length_toDigits_le_iff (by decide) Nat.length_toDigits_pos).mp (Nat.le_refl _)
  have hp : ∀ n, 0 < Nat.pow 2 n := Nat.two_pow_pos
  have hq := grid_quotient_lt (e := x.leadingExponent - (c : Nat)) (hp 1074) hL rfl hc
  exact Nat.le_trans hd hq

/-- The shortest decimal of a double other than zero, if there is one. -/
theorem shortest_cases {x : Double} (hx : 0 < x.units) :
    x.shortest = ⟨0, 0⟩ ∨ (0 < x.shortest.digits ∧ x.shortest.digits ≤ 10 ^ 17 ∧
      x.shortest.AtMost x.interval.high) := by
  unfold shortest
  dsimp only
  split
  · rename_i d hd
    right
    obtain ⟨c, hc, hg⟩ := List.exists_of_findSome?_eq_some hd
    have hc : c ≤ 16 := by
      have := List.mem_range.mp hc
      omega
    obtain ⟨he, -, hh⟩ := onGrid_eq_some hg
    have hpos : 0 < d.digits := by
      have hlow := Interval.low_le hh
      have hp : 0 < x.interval.low * Nat.pow 10 (-(x.leadingExponent - (c : Nat))).toNat :=
        Nat.mul_pos (interval_low_pos hx) (Nat.pow_pos (by decide))
      exact Nat.pos_of_mul_pos_right (Nat.lt_of_lt_of_le hp hlow)
    have hmost : d.AtMost x.interval.high := by
      unfold Decimal.AtMost
      rw [he]
      exact Interval.le_high hh
    exact ⟨trimmed_digits_pos _ hpos,
      Nat.le_trans (trimmed_digits_le _ _) (onGrid_digits_le hc hg), trimmed_atMost _ hmost⟩
  · exact Or.inl rfl

end Planner.Double

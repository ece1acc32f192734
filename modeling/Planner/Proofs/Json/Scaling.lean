import Planner.Json.Numeral
import Planner.Proofs.Double.Rounding
import Planner.Proofs.Double.Shortest

/-! Scaling by powers of ten as it is done when a number is read: it never leaves the doubles
when the number is the shortest decimal of a double. -/
namespace Planner

open Json Numeral

namespace Double

/-- All doubles but the two greatest are far enough below the limit for two further roundings. -/
theorem two_mul_units_le {x : Double} {k : Nat} (h : x.bits + 2 < (k + 3) * 2 ^ 52) :
    2 * x.units + Nat.pow 2 x.scale ≤ (2 ^ 54 - 5) * 2 ^ (k + 1) := by
  have he : 2 * x.units + Nat.pow 2 x.scale = (2 * x.significand + 1) * 2 ^ x.scale := by
    simp only [units, Nat.pow_eq]
    ring
  have hs : x.scale ≤ k + 1 := by
    simp only [scale, Nat.pow_eq]
    omega
  rw [he]
  rcases Nat.lt_or_eq_of_le hs with hs | hs
  · have hr : x.significand < 2 ^ 53 := by
      simp only [significand, Nat.pow_eq]
      split_ifs <;> omega
    calc (2 * x.significand + 1) * 2 ^ x.scale ≤ (2 ^ 54 - 1) * 2 ^ k :=
          Nat.mul_le_mul (by omega) (Nat.pow_le_pow_right (by decide) (by omega))
      _ ≤ (2 * (2 ^ 54 - 5)) * 2 ^ k := Nat.mul_le_mul_right _ (by decide)
      _ = (2 ^ 54 - 5) * 2 ^ (k + 1) := by
        rw [pow_succ 2 k]
        ring
  · have hr : x.significand ≤ 2 ^ 53 - 3 := by
      simp only [scale, Nat.pow_eq] at hs
      simp only [significand, Nat.pow_eq]
      split_ifs <;> omega
    rw [hs]
    exact Nat.mul_le_mul_right _ (by omega)

theorem product_lt {X Y a b p t : Nat} (hp : 0 < p) (ht : 0 < t)
    (hX : 2 ^ 53 * X ≤ (2 ^ 53 + 1) * (a * p)) (hY : 2 ^ 53 * Y ≤ (2 ^ 53 + 1) * (b * p))
    (hu : a * (p * b) ≤ (2 ^ 54 - 5) * t) : X * Y < p * ((2 ^ 54 - 1) * t) := by
  have hXY := Nat.mul_le_mul hX hY
  have hl : 2 ^ 53 * X * (2 ^ 53 * Y) = 2 ^ 106 * (X * Y) := by ring
  have hr : (2 ^ 53 + 1) * (a * p) * ((2 ^ 53 + 1) * (b * p)) =
      (2 ^ 53 + 1) ^ 2 * p * (a * (p * b)) := by ring
  have hpt : 0 < p * t := Nat.mul_pos hp ht
  have hb : 2 ^ 106 * (X * Y) < 2 ^ 106 * (p * ((2 ^ 54 - 1) * t)) := by
    calc 2 ^ 106 * (X * Y) ≤ (2 ^ 53 + 1) ^ 2 * p * (a * (p * b)) := by rwa [hl, hr] at hXY
      _ ≤ (2 ^ 53 + 1) ^ 2 * p * ((2 ^ 54 - 5) * t) := Nat.mul_le_mul_left _ hu
      _ = (2 ^ 53 + 1) ^ 2 * (2 ^ 54 - 5) * (p * t) := by ring
      _ < 2 ^ 106 * (2 ^ 54 - 1) * (p * t) := Nat.mul_lt_mul_of_pos_right (by decide) hpt
      _ = 2 ^ 106 * (p * ((2 ^ 54 - 1) * t)) := by ring
  exact Nat.lt_of_mul_lt_mul_left hb

end Double

theorem powerOfTen_fits {e : Nat} (he : e ≤ 308) :
    10 ^ e * Nat.pow 2 1074 < Double.unitLimit := by
  have hm : ∀ p, 10 ^ e * p ≤ 10 ^ 308 * p := fun p =>
    Nat.mul_le_mul_right p (Nat.pow_le_pow_right (by decide) he)
  have hl : 10 ^ 308 * Nat.pow 2 1074 < Double.unitLimit := by decide +kernel
  exact Nat.lt_of_le_of_lt (hm _) hl

/-- A power of ten is read exactly or a little off, but never below one. -/
theorem powerOfTen_units {e : Nat} (he : e ≤ 308) :
    Nat.pow 2 1074 ≤ (powerOfTen e).units ∧
      2 ^ 53 * (powerOfTen e).units ≤ (2 ^ 53 + 1) * (10 ^ e * Nat.pow 2 1074) := by
  obtain ⟨y, hy, hlow, hhigh⟩ :=
    Double.ofQuotient?_whole (Nat.pow_pos (by decide)) (powerOfTen_fits he)
  have hp : powerOfTen e = y := by
    unfold powerOfTen
    exact congrArg (·.getD default) hy
  rw [hp]
  exact ⟨hlow, hhigh⟩

theorem div_powerOfTen_isSome {e : Nat} (he : e ≤ 308) (x : Double) :
    ∃ y, x.div? (powerOfTen e) = some y := Double.div?_isSome (powerOfTen_units he).1

/-- A negative power of ten always leaves a double. -/
theorem scaleByTen_neg {e : Int} (he : e < 0) (steps : Nat) (x : Double) :
    ∃ y, scaleByTen steps x e = .ok y := by
  induction steps generalizing x e with
  | zero =>
    unfold scaleByTen
    by_cases hn : e.natAbs ≤ 308
    · obtain ⟨y, hy⟩ := div_powerOfTen_isSome hn x
      rw [if_pos hn]
      exact ⟨y, by simp [show ¬ 0 ≤ e by omega, hy]⟩
    · rw [if_neg hn]
      split_ifs
      · exact ⟨_, rfl⟩
      · omega
      · exact ⟨_, rfl⟩
  | succ steps ih =>
    unfold scaleByTen
    by_cases hn : e.natAbs ≤ 308
    · obtain ⟨y, hy⟩ := div_powerOfTen_isSome hn x
      rw [if_pos hn]
      exact ⟨y, by simp [show ¬ 0 ≤ e by omega, hy]⟩
    · rw [if_neg hn]
      split_ifs
      · exact ⟨_, rfl⟩
      · omega
      · exact ih (by omega) _

theorem ofInt_natCast {n : Nat} {x : Double} (h : Double.ofQuotient? false n 1 = some x) :
    Double.ofInt n = x := by
  have hn : decide ((n : Int) < 0) = false := decide_eq_false (by omega)
  unfold Double.ofInt
  rw [hn, Int.natAbs_natCast, h]
  rfl

/-- A decimal that is not above the reals of all but the two greatest doubles is read. -/
theorem mul_powerOfTen_isSome {x : Double} {d : Double.Decimal} (hd : 0 < d.digits)
    (hm : d.AtMost x.interval.high) (hx : x.bits + 2 < 0x7FF0000000000000)
    (he : 0 ≤ d.exponent) :
    d.exponent.natAbs ≤ 308 ∧
      ∃ y, (Double.ofInt d.digits).mul? (powerOfTen d.exponent.natAbs) = some y := by
  obtain ⟨e, he⟩ := Int.eq_ofNat_of_zero_le he
  have hu : d.digits * (Nat.pow 2 1074 * 10 ^ e) ≤ (2 ^ 54 - 5) * 2 ^ 2044 := by
    have hb := Double.two_mul_units_le (k := 2044) hx
    unfold Double.Decimal.AtMost at hm
    rw [Double.interval_high, he] at hm
    have hz : (-(e : Int)).toNat = 0 := by omega
    rw [hz, Int.toNat_natCast] at hm
    generalize Nat.pow 2 1074 = p at hm ⊢
    simp only [Nat.pow_eq, Nat.pow_zero, Nat.mul_one] at hm hb ⊢
    rw [pow_succ 2 2044] at hb
    have hr : d.digits * (4 * p * 10 ^ e) = 4 * (d.digits * (p * 10 ^ e)) := by ring
    rw [hr] at hm
    generalize 2 ^ 2044 = t at hb ⊢
    omega
  have hlt : d.digits * (Nat.pow 2 1074 * 10 ^ e) < Double.unitLimit :=
    Nat.lt_of_le_of_lt hu (Nat.mul_lt_mul_of_pos_right (by decide) (Nat.two_pow_pos _))
  have hone : ∀ p, p * 10 ^ e ≤ d.digits * (p * 10 ^ e) := fun p =>
    Nat.le_mul_of_pos_left _ hd
  have hle : e ≤ 308 := by
    by_contra hn
    have hbig : Double.unitLimit ≤ Nat.pow 2 1074 * 10 ^ 309 := by decide +kernel
    have hgrow : ∀ p, p * 10 ^ 309 ≤ p * 10 ^ e := fun p =>
      Nat.mul_le_mul_left p (Nat.pow_le_pow_right (by decide) (by omega))
    exact absurd hlt (Nat.not_lt.mpr
      (Nat.le_trans hbig (Nat.le_trans (hgrow _) (hone _))))
  rw [he, Int.natAbs_natCast]
  refine ⟨hle, ?_⟩
  have hfit : ∀ p, d.digits * p ≤ d.digits * (p * 10 ^ e) := fun p =>
    Nat.mul_le_mul_left _ (Nat.le_mul_of_pos_right _ (Nat.pow_pos (by decide)))
  obtain ⟨a, ha, -, hX⟩ := Double.ofQuotient?_whole hd (Nat.lt_of_le_of_lt (hfit _) hlt)
  rw [ofInt_natCast ha]
  have hY := (powerOfTen_units hle).2
  have hp := Double.pow_two_pos 1074
  have ht := Nat.two_pow_pos 2044
  apply Double.mul?_isSome
  unfold Double.unitLimit
  generalize Nat.pow 2 1074 = p at hp hX hY hu ⊢
  generalize 2 ^ 2044 = t at ht hu ⊢
  exact Double.product_lt hp ht hX hY hu

theorem shortest_greatest (negative : Bool) :
    (Double.shortest ⟨negative, 0x7FEFFFFFFFFFFFFF, by decide⟩).digits = 17976931348623157 ∧
    (Double.shortest ⟨negative, 0x7FEFFFFFFFFFFFFF, by decide⟩).exponent = 292 := by
  revert negative
  decide +kernel

theorem shortest_second_greatest (negative : Bool) :
    (Double.shortest ⟨negative, 0x7FEFFFFFFFFFFFFE, by decide⟩).digits = 17976931348623155 ∧
    (Double.shortest ⟨negative, 0x7FEFFFFFFFFFFFFE, by decide⟩).exponent = 292 := by
  revert negative
  decide +kernel

theorem mul_powerOfTen_greatest :
    ((Double.ofInt (17976931348623157 : Nat)).mul? (powerOfTen (292 : Int).natAbs)).isSome ∧
    ((Double.ofInt (17976931348623155 : Nat)).mul? (powerOfTen (292 : Int).natAbs)).isSome := by
  decide +kernel

/-- Multiplying out the shortest decimal of a double leaves a double. The two greatest are too
close to the limit for the general bound and are multiplied out. -/
theorem shortest_mul_isSome {x : Double} (hx : 0 < x.units) (hd : 0 < x.shortest.digits)
    (he : 0 ≤ x.shortest.exponent) :
    x.shortest.exponent.natAbs ≤ 308 ∧
      ∃ y, (Double.ofInt x.shortest.digits).mul? (powerOfTen x.shortest.exponent.natAbs) =
        some y := by
  rcases Nat.lt_or_ge (x.bits + 2) 0x7FF0000000000000 with hb | hb
  · rcases Double.shortest_cases hx with hs | ⟨-, -, hm⟩
    · simp [hs] at hd
    · exact mul_powerOfTen_isSome hd hm hb he
  · obtain ⟨negative, bits, hf⟩ := x
    obtain rfl | rfl : bits = 0x7FEFFFFFFFFFFFFF ∨ bits = 0x7FEFFFFFFFFFFFFE := by
      simp only at hb
      omega
    · obtain ⟨h₁, h₂⟩ := shortest_greatest negative
      rw [h₁, h₂]
      exact ⟨by decide, Option.isSome_iff_exists.mp mul_powerOfTen_greatest.1⟩
    · obtain ⟨h₁, h₂⟩ := shortest_second_greatest negative
      rw [h₁, h₂]
      exact ⟨by decide, Option.isSome_iff_exists.mp mul_powerOfTen_greatest.2⟩

end Planner

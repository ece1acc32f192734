import Planner.Json.Number
import Planner.Proofs.Double.Rounding

/-! Whole numbers as doubles: rounding keeps their order though it may bring neighbours together,
and up to `2 ^ 53` it changes nothing. -/
namespace Planner

variable {num num' den : Nat}

theorem roundHalfEven_le_succ (num den : Nat) : roundHalfEven num den ≤ num / den + 1 := by
  simp only [roundHalfEven]
  split_ifs <;> omega

theorem roundHalfEven_mono (h : num ≤ num') (den : Nat) :
    roundHalfEven num den ≤ roundHalfEven num' den := by
  have hquotient : num / den ≤ num' / den := Nat.div_le_div_right h
  rcases Nat.lt_or_eq_of_le hquotient with hlt | heq
  · have hupper := roundHalfEven_le_succ num den
    have hlower := div_le_roundHalfEven num' den
    omega
  · have hremainder : num % den ≤ num' % den := by
      have hnum := Nat.div_add_mod num den
      have hnum' := Nat.div_add_mod num' den
      rw [heq] at hnum
      omega
    simp only [roundHalfEven, heq]
    split_ifs <;> omega

theorem roundHalfEven_mul (n : Nat) (h : 0 < den) : roundHalfEven (n * den) den = n := by
  simp [roundHalfEven, Nat.mul_div_cancel _ h, h]

namespace Double

theorem quotientScale_mono (h : num ≤ num') (den : Nat) :
    quotientScale num den ≤ quotientScale num' den := by
  have hquotient : num / den ≤ num' / den := Nat.div_le_div_right h
  have hlog : (num / den).log2 ≤ (num' / den).log2 := by
    rw [Nat.log2_eq_log_two, Nat.log2_eq_log_two]
    exact Nat.log_mono_right hquotient
  unfold quotientScale
  omega

/-- A greater quotient is not rounded to a smaller double. -/
theorem nearestBits_mono (h : num ≤ num') (hd : 0 < den) :
    nearestBits num den ≤ nearestBits num' den := by
  rw [nearestBits_eq, nearestBits_eq]
  rcases Nat.lt_or_eq_of_le (quotientScale_mono h den) with hlt | heq
  · -- a significand that carries reaches the first double of the next scale at most
    have hcarry := quotientSignificand_le num hd
    have hfull : 2 ^ 52 ≤ quotientSignificand num' den := by
      rcases quotientScale_eq_zero_or num' den with hzero | hfull
      · omega
      · have hp : 0 < den * 2 ^ quotientScale num' den := Nat.mul_pos hd (Nat.two_pow_pos _)
        exact Nat.le_trans ((Nat.le_div_iff_mul_le hp).mpr hfull) (div_le_roundHalfEven _ _)
    omega
  · unfold quotientSignificand
    rw [heq]
    have hsignificand := roundHalfEven_mono h (den * 2 ^ quotientScale num' den)
    omega

/-- A quotient that the scale divides is not changed by rounding. -/
theorem quotientSignificand_mul_of_dvd (h : 2 ^ quotientScale num 1 ∣ num) :
    quotientSignificand num 1 * 2 ^ quotientScale num 1 = num := by
  obtain ⟨n, hn⟩ := h
  have hpos : 0 < 2 ^ quotientScale num 1 := Nat.two_pow_pos _
  unfold quotientSignificand
  generalize 2 ^ quotientScale num 1 = p at hn hpos ⊢
  rw [Nat.one_mul, hn, Nat.mul_comm p n, roundHalfEven_mul n hpos]

/-- The weight of the last bit of a whole number divides the number, if that is `2 ^ 53` at most. -/
theorem two_pow_quotientScale_dvd {n : Nat} (hn : n ≤ 2 ^ 53) (k : Nat) :
    2 ^ quotientScale (n * 2 ^ k) 1 ∣ n * 2 ^ k := by
  unfold quotientScale
  rw [Nat.div_one]
  rcases Nat.lt_or_eq_of_le hn with hlt | rfl
  · have hlog : (n * 2 ^ k).log2 - 52 ≤ k := by
      by_cases hzero : n = 0
      · simp [hzero]
      · have hne : n * 2 ^ k ≠ 0 := Nat.mul_ne_zero hzero (Nat.two_pow_pos k).ne'
        have hbound : n * 2 ^ k < 2 ^ (53 + k) := by
          rw [pow_add]
          exact Nat.mul_lt_mul_of_pos_right hlt (Nat.two_pow_pos k)
        have := (Nat.log2_lt hne).mpr hbound
        omega
    exact (pow_dvd_pow 2 hlog).trans (Nat.dvd_mul_left _ _)
  · rw [← pow_add, Nat.log2_two_pow]
    exact pow_dvd_pow 2 (by omega)

/-- The units of the double nearest to a whole number, and how it comes by them. -/
theorem ofQuotient?_lt {n : Nat} (negative : Bool) (h : n < 2 ^ 65) :
    ∃ x, ofQuotient? negative n 1 = some x ∧ x.negative = negative ∧
      x.bits = nearestBits (n * Nat.pow 2 1074) 1 ∧
      (n ≤ 2 ^ 53 → x.units = n * Nat.pow 2 1074) := by
  obtain ⟨k, hk, he⟩ : ∃ k, k ≤ 1979 ∧ k = 1074 := ⟨1074, by decide, rfl⟩
  unfold ofQuotient?
  rw [← he]
  have hlimit : n * Nat.pow 2 k < 1 * unitLimit := by
    have hpow : 2 ^ 65 * 2 ^ k ≤ 2 ^ 2044 := by
      rw [← pow_add]
      exact Nat.pow_le_pow_right (by decide) (by omega)
    have hmul : n * 2 ^ k < 2 ^ 65 * 2 ^ k := Nat.mul_lt_mul_of_pos_right h (Nat.two_pow_pos k)
    have hone : 2 ^ 2044 ≤ unitLimit := Nat.le_mul_of_pos_left _ (by decide)
    rw [Nat.one_mul, Nat.pow_eq]
    exact hmul.trans_le (hpow.trans hone)
  obtain ⟨x, hx, hnegative, hunits⟩ := ofUnits?_eq_some negative Nat.one_pos hlimit
  refine ⟨x, hx, hnegative, ?_, fun hn => ?_⟩
  · unfold ofUnits? at hx
    split_ifs at hx
    cases hx
    rfl
  · rw [hunits]
    exact quotientSignificand_mul_of_dvd (two_pow_quotientScale_dvd hn k)

theorem units_congr {x y : Double} (h : x.bits = y.bits) : x.units = y.units := by
  simp only [units, significand, scale, h]

/-- Below `2 ^ 53` no two whole numbers share a double, nor does one with a greater number. -/
theorem nearestBits_injective {n n' : Nat} (hn : n < 2 ^ 53) (hn' : n' < 2 ^ 65)
    (h : nearestBits (n * Nat.pow 2 1074) 1 = nearestBits (n' * Nat.pow 2 1074) 1) : n = n' := by
  obtain ⟨x, -, -, hx, hxUnits⟩ := ofQuotient?_lt false (n := n) (by omega)
  have hpos := pow_two_pos 1074
  by_contra hne
  -- the nearest of the two to the first number, which is a double itself
  obtain ⟨m, hm, hmn, hbits⟩ : ∃ m, m ≤ 2 ^ 53 ∧ m ≠ n ∧
      nearestBits (m * Nat.pow 2 1074) 1 = nearestBits (n * Nat.pow 2 1074) 1 := by
    rcases Nat.lt_or_gt_of_ne hne with hlt | hgt
    · refine ⟨n + 1, hn, by omega, Nat.le_antisymm ?_ ?_⟩
      · rw [h]
        exact nearestBits_mono (Nat.mul_le_mul_right _ hlt) Nat.one_pos
      · exact nearestBits_mono (Nat.mul_le_mul_right _ (by omega)) Nat.one_pos
    · exact ⟨n', by omega, Ne.symm hne, h.symm⟩
  obtain ⟨y, -, -, hy, hyUnits⟩ := ofQuotient?_lt false (n := m) (by omega)
  have hunits := units_congr ((hy.trans hbits).trans hx.symm)
  rw [hyUnits hm, hxUnits hn.le] at hunits
  exact hmn (Nat.eq_of_mul_eq_mul_right hpos hunits)

/-! ### The order of places -/

theorem strictPlace_injective : Function.Injective strictPlace := by
  rintro ⟨negative, bits, _⟩ ⟨negative', bits', _⟩ h
  cases negative <;> cases negative' <;> simp [strictPlace] at h ⊢ <;> omega

section Places

variable {x y : Double} (hx : x.negative = true → 0 < x.bits) (hy : y.negative = true → 0 < y.bits)
include hx hy

theorem place_lt_iff : x.place < y.place ↔ x.strictPlace < y.strictPlace := by
  obtain ⟨negative, bits, _⟩ := x
  obtain ⟨negative', bits', _⟩ := y
  cases negative <;> cases negative' <;> simp [place, strictPlace] at hx hy ⊢ <;> omega

/-- The two orders differ on the negative zero only. -/
theorem compare_eq_totalCompare : x.compare y = x.totalCompare y := by
  have hlt := place_lt_iff hx hy
  have hgt := place_lt_iff hy hx
  unfold compare totalCompare
  rcases lt_trichotomy x.strictPlace y.strictPlace with h | h | h
  · rw [compare_lt_iff_lt.mpr h, compare_lt_iff_lt.mpr (hlt.mpr h)]
  · rw [compare_eq_iff_eq.mpr h, compare_eq_iff_eq]
    omega
  · rw [compare_gt_iff_gt.mpr h, compare_gt_iff_gt.mpr (hgt.mpr h)]

end Places

/-- What is known of the double nearest to an integer. -/
theorem ofInt_spec (x : Integer) : (ofInt x.value).negative = decide (x.value < 0) ∧
    (ofInt x.value).bits = nearestBits (x.value.natAbs * Nat.pow 2 1074) 1 := by
  have hrange : x.value.natAbs < 2 ^ 65 := by
    have := x.inRange
    omega
  obtain ⟨z, hz, hnegative, hbits, -⟩ := ofQuotient?_lt (decide (x.value < 0)) hrange
  have hof : ofInt x.value = z := by
    unfold ofInt
    rw [hz]
    rfl
  rw [hof]
  exact ⟨hnegative, hbits⟩

theorem ofInt_bits_pos {x : Integer} (h : x.value ≠ 0) : 0 < (ofInt x.value).bits := by
  have hrange := x.inRange
  refine Nat.pos_of_ne_zero fun hzero => h ?_
  rw [(ofInt_spec x).2] at hzero
  have hnone : nearestBits (0 * Nat.pow 2 1074) 1 = 0 := by simp [nearestBits, roundHalfEven]
  have habs := nearestBits_injective (by decide) (by omega) (hnone.trans hzero.symm)
  omega

/-- Rounding to doubles keeps the order of integers. -/
theorem strictPlace_ofInt_mono {x y : Integer} (h : x.value ≤ y.value) :
    (ofInt x.value).strictPlace ≤ (ofInt y.value).strictPlace := by
  obtain ⟨hx, hxBits⟩ := ofInt_spec x
  obtain ⟨hy, hyBits⟩ := ofInt_spec y
  have hbits : ∀ n m : Nat, n ≤ m →
      nearestBits (n * Nat.pow 2 1074) 1 ≤ nearestBits (m * Nat.pow 2 1074) 1 :=
    fun _ _ hle => nearestBits_mono (Nat.mul_le_mul_right _ hle) Nat.one_pos
  unfold strictPlace
  rw [hx, hy, hxBits, hyBits]
  by_cases hxNeg : x.value < 0 <;> by_cases hyNeg : y.value < 0
  · have hle := hbits y.value.natAbs x.value.natAbs (by omega)
    simp only [hxNeg, hyNeg, decide_true, if_true]
    omega
  · simp only [hxNeg, hyNeg, decide_true, decide_false, if_true, Bool.false_eq_true, if_false]
    omega
  · omega
  · have hle := hbits x.value.natAbs y.value.natAbs (by omega)
    simp only [hxNeg, hyNeg, decide_false, Bool.false_eq_true, if_false]
    omega

/-- Integers compare as integers do, or as equal ones if they have one nearest double. -/
theorem totalCompare_ofInt (x y : Integer) : (ofInt x.value).totalCompare (ofInt y.value) =
    if ofInt x.value = ofInt y.value then .eq else Ord.compare x.value y.value := by
  unfold totalCompare
  by_cases heq : ofInt x.value = ofInt y.value
  · rw [if_pos heq, heq, compare_eq_iff_eq]
  · rw [if_neg heq]
    have hne : (ofInt x.value).strictPlace ≠ (ofInt y.value).strictPlace :=
      fun h => heq (strictPlace_injective h)
    rcases lt_trichotomy x.value y.value with h | h | h
    · have hle := strictPlace_ofInt_mono h.le
      rw [compare_lt_iff_lt.mpr h, compare_lt_iff_lt]
      omega
    · exact absurd (congrArg ofInt h) heq
    · have hle := strictPlace_ofInt_mono h.le
      rw [compare_gt_iff_gt.mpr h, compare_gt_iff_gt]
      omega

theorem compare_ofInt (x y : Integer) : (ofInt x.value).compare (ofInt y.value) =
    (ofInt x.value).totalCompare (ofInt y.value) := by
  have hpos : ∀ z : Integer, (ofInt z.value).negative = true → 0 < (ofInt z.value).bits := by
    intro z hz
    rw [(ofInt_spec z).1, decide_eq_true_eq] at hz
    exact ofInt_bits_pos hz.ne
  exact compare_eq_totalCompare (hpos x) (hpos y)

/-- Only integers from `2 ^ 53` on share a double with another one. -/
theorem le_natAbs_of_ofInt_eq {x y : Integer} (hne : x.value ≠ y.value)
    (h : ofInt x.value = ofInt y.value) : 2 ^ 53 ≤ x.value.natAbs := by
  obtain ⟨hx, hxBits⟩ := ofInt_spec x
  obtain ⟨hy, hyBits⟩ := ofInt_spec y
  have hyRange := y.inRange
  by_contra hsmall
  have habs : x.value.natAbs = y.value.natAbs :=
    nearestBits_injective (by omega) (by omega) (hxBits.symm.trans ((congrArg bits h).trans hyBits))
  have hsign : decide (x.value < 0) = decide (y.value < 0) :=
    hx.symm.trans ((congrArg negative h).trans hy)
  rw [decide_eq_decide] at hsign
  omega

end Double
end Planner

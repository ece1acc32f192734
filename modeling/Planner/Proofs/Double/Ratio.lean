import Planner.Habits
import Planner.Proofs.Double.Integers

/-! Percentages as doubles give them. Both roundings keep the order of ratios, and so does the last one
to whole points; so where the part is one more than the whole a percentage exceeds a hundred exactly
if the whole is below two hundred. -/
namespace Planner

variable {num num' den den' k part whole part' whole' : Nat}

theorem roundHalfEven_scale (num den : Nat) (hk : 0 < k) :
    roundHalfEven (num * k) (den * k) = roundHalfEven num den := by
  have hquotient : num * k / (den * k) = num / den := Nat.mul_div_mul_right _ _ hk
  have hrest : 2 * (num * k % (den * k)) = 2 * (num % den) * k := by
    rw [Nat.mul_mod_mul_right, Nat.mul_assoc]
  simp only [roundHalfEven, hquotient, hrest, Nat.mul_lt_mul_right hk]

namespace Double

/-- A quotient is rounded alike however it is written. -/
theorem nearestBits_scale (num den : Nat) (hk : 0 < k) :
    nearestBits (num * k) (den * k) = nearestBits num den := by
  have hscale : quotientScale (num * k) (den * k) = quotientScale num den := by
    unfold quotientScale
    rw [Nat.mul_div_mul_right _ _ hk]
  rw [nearestBits_eq, nearestBits_eq]
  unfold quotientSignificand
  rw [hscale, Nat.mul_right_comm, roundHalfEven_scale num _ hk]

/-- A greater quotient is not rounded to a smaller double, whatever the two are divided by. -/
theorem nearestBits_le_of_ratio (hd : 0 < den) (hd' : 0 < den') (h : num * den' ≤ num' * den) :
    nearestBits num den ≤ nearestBits num' den' :=
  calc nearestBits num den = nearestBits (num * den') (den * den') :=
        (nearestBits_scale num den hd').symm
    _ ≤ nearestBits (num' * den) (den * den') := nearestBits_mono h (Nat.mul_pos hd hd')
    _ = nearestBits (num' * den) (den' * den) := by rw [Nat.mul_comm den den']
    _ = nearestBits num' den' := nearestBits_scale num' den' hd

theorem units_mono {x y : Double} (h : x.bits ≤ y.bits) : x.units ≤ y.units := by
  have hscale : x.scale ≤ y.scale := by
    unfold scale
    exact Nat.sub_le_sub_right (Nat.div_le_div_right h) 1
  rcases Nat.lt_or_eq_of_le hscale with hlt | heq
  · have hx : x.significand ≤ 2 ^ 53 := by
      simp only [significand, Nat.pow_eq]
      split_ifs <;> omega
    have hy : 2 ^ 52 ≤ y.significand := by
      simp only [significand, scale, Nat.pow_eq] at hlt ⊢
      split_ifs <;> omega
    calc x.significand * 2 ^ x.scale ≤ 2 ^ 53 * 2 ^ x.scale := Nat.mul_le_mul_right _ hx
      _ = 2 ^ 52 * 2 ^ (x.scale + 1) := by rw [pow_succ 2 x.scale]; ring
      _ ≤ y.significand * 2 ^ y.scale :=
        Nat.mul_le_mul hy (Nat.pow_le_pow_right (by decide) hlt)
  · have hsignificand : x.significand ≤ y.significand := by
      simp only [significand, scale, Nat.pow_eq] at heq ⊢
      split_ifs <;> omega
    unfold units
    rw [heq]
    exact Nat.mul_le_mul_right _ hsignificand

/-- The units of the number one. -/
@[irreducible]
def oneUnits : Nat := Nat.pow 2 1074

theorem oneUnits_pos : 0 < oneUnits := by
  unfold oneUnits
  generalize 1074 = k
  exact pow_two_pos k

theorem bits_of_ofUnits? {negative : Bool} {x : Double} (h : ofUnits? negative num den = some x) :
    x.bits = nearestBits num den := by
  unfold ofUnits? at h
  split_ifs at h
  cases h
  rfl

/-- Up to `2 ^ 53` a number is a double. -/
theorem bits_units_ofInt (h : num ≤ 2 ^ 53) :
    (ofInt num).bits = nearestBits (num * oneUnits) 1 ∧ (ofInt num).units = num * oneUnits := by
  obtain ⟨x, hx, -, hbits, hunits⟩ := ofQuotient?_lt false (n := num) (by omega)
  have hof : ofInt num = x := by
    unfold ofInt
    rw [decide_eq_false (by omega), Int.natAbs_natCast, hx]
    rfl
  unfold oneUnits
  rw [hof]
  exact ⟨hbits, hunits h⟩

theorem exists_div? {x y : Double} (h : oneUnits ≤ y.units) : ∃ z, x.div? y = some z ∧
    z.bits = nearestBits (x.units * oneUnits) y.units := by
  unfold oneUnits at h ⊢
  obtain ⟨z, hz⟩ := div?_isSome (x := x) h
  exact ⟨z, hz, bits_of_ofUnits? hz⟩

theorem exists_mul? {x y : Double} (h : x.units * y.units < oneUnits * unitLimit) :
    ∃ z, x.mul? y = some z ∧ z.bits = nearestBits (x.units * y.units) oneUnits := by
  unfold oneUnits at h ⊢
  obtain ⟨z, hz⟩ := mul?_isSome h
  exact ⟨z, hz, bits_of_ofUnits? hz⟩

theorem roundToNat_mono {x y : Double} (h : x.units ≤ y.units) : x.roundToNat ≤ y.roundToNat := by
  unfold roundToNat
  generalize Nat.pow 2 1074 = half
  generalize Nat.pow 2 1075 = whole
  exact Nat.div_le_div_right (Nat.add_le_add_right (Nat.mul_le_mul_left 2 h) _)

theorem hundredfold_lt_unitLimit : 2 ^ 53 * oneUnits * 100 < unitLimit := by
  unfold oneUnits
  decide +kernel

end Double

open Double

theorem percentage_of_some {ratio percent : Double}
    (hratio : (ofInt part).div? (ofInt whole) = some ratio)
    (hpercent : ratio.mul? (ofInt 100) = some percent) :
    percentage part whole = percent.roundToNat := by
  -- unfolded before it is applied, so that the quotient in it is never evaluated
  obtain ⟨f, hf⟩ : ∃ f, f = percentage := ⟨_, rfl⟩
  rw [← hf]
  delta percentage at hf
  have happlied := congrFun (congrFun hf part) whole
  dsimp only at happlied
  rw [hratio, Option.bind_some, hpercent] at happlied
  exact happlied

/-- How a percentage comes about: the ratio is rounded, then the hundredfold of it, and then that to
whole points. -/
theorem percentage_steps (hpart : part ≤ 2 ^ 53) (hwhole : 0 < whole) (hlimit : whole ≤ 2 ^ 53) :
    ∃ ratio percent : Double, ratio.bits = nearestBits (part * oneUnits) whole ∧
      percent.bits = nearestBits (ratio.units * 100) 1 ∧
      percentage part whole = percent.roundToNat := by
  have hunit := oneUnits_pos
  have hundred : (ofInt 100).units = 100 * oneUnits := by
    rw [← Nat.cast_ofNat (n := 100)]
    exact (bits_units_ofInt (by decide)).2
  obtain ⟨hpartBits, hpartUnits⟩ := bits_units_ofInt hpart
  obtain ⟨-, hwholeUnits⟩ := bits_units_ofInt hlimit
  obtain ⟨ratio, hratio, hratioBits⟩ := exists_div? (x := ofInt part) (y := ofInt whole)
    (hwholeUnits ▸ Nat.le_mul_of_pos_left _ hwhole)
  rw [hpartUnits, hwholeUnits, nearestBits_scale _ _ hunit] at hratioBits
  have hratioUnits : ratio.units ≤ 2 ^ 53 * oneUnits := by
    have hle : ratio.bits ≤ (ofInt part).bits := by
      rw [hratioBits, hpartBits]
      exact nearestBits_le_of_ratio hwhole Nat.one_pos (Nat.mul_le_mul_left _ hwhole)
    exact (hpartUnits ▸ units_mono hle).trans (Nat.mul_le_mul_right _ hpart)
  have hproduct : ratio.units * (ofInt 100).units = ratio.units * 100 * oneUnits := by
    rw [hundred, Nat.mul_assoc]
  have hbound : ratio.units * (ofInt 100).units < oneUnits * unitLimit := by
    rw [hproduct, Nat.mul_comm]
    exact Nat.mul_lt_mul_of_pos_left
      ((Nat.mul_le_mul_right 100 hratioUnits).trans_lt hundredfold_lt_unitLimit) hunit
  obtain ⟨percent, hpercent, hpercentBits⟩ := exists_mul? hbound
  have hone : nearestBits (ratio.units * 100 * oneUnits) (1 * oneUnits) = _ :=
    nearestBits_scale _ _ hunit
  rw [Nat.one_mul] at hone
  rw [hproduct, hone] at hpercentBits
  refine ⟨ratio, percent, hratioBits, hpercentBits, ?_⟩
  exact percentage_of_some hratio hpercent

/-- A greater part of a whole has no smaller percentage. -/
theorem percentage_mono (hpart : part ≤ 2 ^ 53) (hwhole : 0 < whole) (hlimit : whole ≤ 2 ^ 53)
    (hpart' : part' ≤ 2 ^ 53) (hwhole' : 0 < whole') (hlimit' : whole' ≤ 2 ^ 53)
    (h : part * whole' ≤ part' * whole) : percentage part whole ≤ percentage part' whole' := by
  obtain ⟨ratio, percent, hratio, hpercent, heq⟩ := percentage_steps hpart hwhole hlimit
  obtain ⟨ratio', percent', hratio', hpercent', heq'⟩ := percentage_steps hpart' hwhole' hlimit'
  have hratios : ratio.bits ≤ ratio'.bits := by
    rw [hratio, hratio']
    refine nearestBits_le_of_ratio hwhole hwhole' ?_
    rw [Nat.mul_right_comm, Nat.mul_right_comm part']
    exact Nat.mul_le_mul_right _ h
  have hpercents : percent.bits ≤ percent'.bits := by
    rw [hpercent, hpercent']
    exact nearestBits_mono (Nat.mul_le_mul_right _ (units_mono hratios)) Nat.one_pos
  rw [heq, heq']
  exact roundToNat_mono (units_mono hpercents)

theorem percentage_le_hundred (h : part ≤ whole) (hwhole : 0 < whole) (hlimit : whole ≤ 2 ^ 53) :
    percentage part whole ≤ 100 :=
  calc percentage part whole ≤ percentage 1 1 :=
        percentage_mono (h.trans hlimit) hwhole hlimit (by decide) Nat.one_pos (by decide) (by omega)
    _ = 100 := by decide +kernel

/-- One more than the whole is more than a hundred per cent exactly where it is at least half a point
more. -/
theorem percentage_succ_le_hundred_iff (hwhole : 0 < whole) (hlimit : whole < 2 ^ 53) :
    percentage (whole + 1) whole ≤ 100 ↔ 200 ≤ whole := by
  constructor
  · intro hle
    by_contra hsmall
    have habove : percentage 200 199 = 101 := by decide +kernel
    have hmono : percentage 200 199 ≤ percentage (whole + 1) whole :=
      percentage_mono (by decide) (by decide) (by decide) hlimit hwhole hlimit.le (by omega)
    omega
  · intro hlarge
    calc percentage (whole + 1) whole ≤ percentage 201 200 :=
          percentage_mono hlimit hwhole hlimit.le (by decide) (by decide) (by decide) (by omega)
      _ = 100 := by decide +kernel

end Planner

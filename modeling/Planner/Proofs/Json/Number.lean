import Planner.Proofs.Json.Numeral

/-! Numbers read back from their text: integers as they are, doubles as doubles. -/
namespace Planner

namespace Double

/-- The double that the text of a double is read back as. -/
def reread (x : Double) : Double :=
  match Json.readNumber x.toText with
  | .ok (.double y, _) => y
  | _ => x

end Double

namespace Number

/-- The number that the text of a number is read back as. -/
def reread : Number → Number
  | .integer n => .integer n
  | .double x => .double x.reread

end Number

namespace Json

open Numeral

variable {rest : List Char}

theorem isDigit_of_mem_toDigits {k : Nat} : ∀ c ∈ Nat.toDigits 10 k, c.isDigit = true :=
  fun _ hc => Nat.isDigit_of_mem_toDigits (by decide) (by decide) hc

theorem toDigits_head {k : Nat} (hk : 0 < k) : ∃ c cs, Nat.toDigits 10 k = c :: cs ∧ c ≠ '0' := by
  induction k using Nat.strongRecOn with
  | ind k ih =>
    rcases Nat.lt_or_ge k 10 with hlt | hge
    · refine ⟨k.digitChar, [], Nat.toDigits_of_lt_base hlt, ?_⟩
      have hall : ∀ k < 10, 0 < k → k.digitChar ≠ '0' := by decide
      exact hall k hlt hk
    · obtain ⟨c, cs, hc, hne⟩ := ih (k / 10) (by omega) (by omega)
      refine ⟨c, cs ++ [(k % 10).digitChar], ?_, hne⟩
      rw [Nat.toDigits_of_base_le (by decide) hge, hc, List.cons_append]

theorem toDigits_no_leading_zero (k : Nat) (c : Char) (cs : List Char) :
    Nat.toDigits 10 k ≠ '0' :: c :: cs := by
  intro h
  rcases Nat.eq_zero_or_pos k with rfl | hk
  · simp [Nat.toDigits_zero] at h
  · obtain ⟨d, ds, hd, hne⟩ := toDigits_head hk
    rw [hd] at h
    exact hne (List.cons.inj h).1

/-- The numeral of a whole number. -/
def wholeNumeral (negative : Bool) (k : Nat) : Numeral := ⟨negative, Nat.toDigits 10 k, none, none⟩

theorem wholeNumeral_wellFormed (negative : Bool) (k : Nat) :
    (wholeNumeral negative k).WellFormed where
  whole_ne := Nat.toDigits_ne_nil
  whole_digits := isDigit_of_mem_toDigits
  no_leading_zero := toDigits_no_leading_zero k
  fraction := by simp [wholeNumeral]
  exponent := by simp [wholeNumeral]

theorem ofInt?_value (n : Integer) : Integer.ofInt? n.value = some n := dif_pos n.inRange

theorem integer_text (n : Integer) : (Number.integer n).toText =
    (wholeNumeral (decide (n.value < 0)) n.value.natAbs).text := by
  simp only [Number.toText, Integer.toText, Numeral.text, unsignedText, wholeNumeral,
    fractionText, exponentText, List.append_nil, decide_eq_true_eq]

/-- An integer is read back as it is. -/
theorem readNumber_integer (n : Integer) (hr : Ends rest) :
    readNumber ((Number.integer n).toText ++ rest) = .ok (.integer n, rest) := by
  have hi : (wholeNumeral (decide (n.value < 0)) n.value.natAbs).toInteger? = some n := by
    simp only [toInteger?, wholeNumeral, Nat.ofDigitChars_ten_toDigits, decide_eq_true_eq]
    split_ifs with hneg hz
    · omega
    · rw [show -(n.value.natAbs : Int) = n.value by omega]
      exact ofInt?_value n
    · rw [show (n.value.natAbs : Int) = n.value by omega]
      exact ofInt?_value n
  unfold readNumber
  rw [integer_text, read_text (wholeNumeral_wellFormed _ _) hr]
  simp only [bind, Except.bind, toNumber, hi]
  rfl

theorem le_ofDigitChars (cs : List Char) (a : Nat) : a ≤ Nat.ofDigitChars 10 cs a := by
  induction cs generalizing a with
  | nil => simp
  | cons c cs ih =>
    rw [Nat.ofDigitChars_cons]
    exact Nat.le_trans (by omega) (ih _)

/-- While they fit 64 bits, the digits in front of the point are taken as they come. -/
theorem foldl_addWhole (cs : List Char) (a : Nat) (e : Int)
    (h : Nat.ofDigitChars 10 cs a < 0x10000000000000000) :
    cs.foldl Significand.addWhole ⟨a, e, false⟩ = ⟨Nat.ofDigitChars 10 cs a, e, false⟩ := by
  induction cs generalizing a with
  | nil => simp
  | cons c cs ih =>
    rw [Nat.ofDigitChars_cons] at h ⊢
    have hlt := Nat.lt_of_le_of_lt (le_ofDigitChars cs _) h
    rw [Nat.mul_comm] at hlt h ⊢
    have hstep : Significand.addWhole ⟨a, e, false⟩ c = ⟨a * 10 + (c.toNat - '0'.toNat), e, false⟩ := by
      simp only [Significand.addWhole, Bool.false_or, decide_eq_true_eq]
      rw [if_neg (Nat.not_le.mpr hlt)]
    rw [List.foldl_cons, hstep]
    exact ih _ h

theorem foldl_addFraction (cs : List Char) (a : Nat) (e : Int)
    (h : Nat.ofDigitChars 10 cs a < 0x10000000000000000) :
    cs.foldl Significand.addFraction ⟨a, e, false⟩ =
      ⟨Nat.ofDigitChars 10 cs a, e - cs.length, false⟩ := by
  induction cs generalizing a e with
  | nil => simp
  | cons c cs ih =>
    rw [Nat.ofDigitChars_cons] at h ⊢
    have hlt := Nat.lt_of_le_of_lt (le_ofDigitChars cs _) h
    rw [Nat.mul_comm] at hlt h ⊢
    have hstep : Significand.addFraction ⟨a, e, false⟩ c =
        ⟨a * 10 + (c.toNat - '0'.toNat), e - 1, false⟩ := by
      simp only [Significand.addFraction, Bool.false_or, decide_eq_true_eq]
      rw [if_neg (Nat.not_le.mpr hlt)]
    rw [List.foldl_cons, hstep, ih _ _ h, List.length_cons]
    congr 1
    push_cast
    ring

/-- The significand of a numeral whose digits fit 64 bits. -/
theorem significand_eq {n : Numeral}
    (h : Nat.ofDigitChars 10 (n.whole ++ n.fraction.getD []) 0 < 0x10000000000000000) :
    n.significand = ⟨Nat.ofDigitChars 10 (n.whole ++ n.fraction.getD []) 0,
      -((n.fraction.getD []).length : Int), false⟩ := by
  rw [Nat.ofDigitChars_append] at h ⊢
  have hw := Nat.lt_of_le_of_lt (le_ofDigitChars (n.fraction.getD []) _) h
  unfold significand
  simp only [foldl_addWhole _ _ _ hw, foldl_addFraction _ _ _ h]
  congr 1
  ring

/-- A numeral that is read as a double. -/
structure ReadsDouble (n : Numeral) : Prop where
  wellFormed : n.WellFormed
  notInteger : n.toInteger? = none
  magnitude : ∃ x, n.magnitude = .ok x

theorem readNumber_numeral {n : Numeral} (hn : ReadsDouble n) :
    ∃ x, ∀ rest, Ends rest → readNumber (n.text ++ rest) = .ok (.double x, rest) := by
  obtain ⟨x, hx⟩ := hn.magnitude
  refine ⟨if n.negative then x.negate else x, fun rest hr => ?_⟩
  unfold readNumber
  rw [read_text hn.wellFormed hr]
  simp only [bind, Except.bind, toNumber, hn.notInteger, toDouble, hx]
  rfl

theorem magnitude_fraction {n : Numeral} {ds : List Char} (he : n.exponent = none)
    (hf : n.fraction = some ds) (hne : ds ≠ [])
    (hv : Nat.ofDigitChars 10 (n.whole ++ ds) 0 < 0x10000000000000000) :
    ∃ x, n.magnitude = .ok x := by
  have hs := significand_eq (n := n) (by simpa [hf] using hv)
  have hlen : 0 < ds.length := List.length_pos_iff.mpr hne
  unfold magnitude
  simp only [he, hs, hf, Option.getD_some]
  exact scaleByTen_neg (by omega) _ _

section Layouts

open Double (Decimal zeros plainLayout)

variable {d : Decimal} {e : Nat} (negative : Bool)

theorem mem_zeros {c : Char} {k : Nat} (h : c ∈ zeros k) : c.isDigit = true := by
  rw [List.eq_of_mem_replicate h]
  decide

theorem no_leading_zero_append {k : Nat} (cs : List Char) (hk : 0 < k) (c : Char)
    (ds : List Char) : Nat.toDigits 10 k ++ cs ≠ '0' :: c :: ds := by
  obtain ⟨a, as, ha, hne⟩ := toDigits_head hk
  rw [ha, List.cons_append]
  intro h
  exact hne (List.cons.inj h).1

theorem lt_pow_length_toDigits (k : Nat) : k < 10 ^ (Nat.toDigits 10 k).length :=
  (Nat.length_toDigits_le_iff (by decide) Nat.length_toDigits_pos).mp (Nat.le_refl _)

/-- Digits with zeros behind them and a fraction of one zero. -/
theorem readsDouble_whole (hd : d = ⟨0, 0⟩ ∨ 0 < d.digits) (he : 0 ≤ d.exponent)
    (hp : ((Nat.toDigits 10 d.digits).length : Int) + d.exponent ≤ 16) :
    ReadsDouble ⟨negative, Nat.toDigits 10 d.digits ++ zeros d.exponent.toNat, some ['0'], none⟩ where
  wellFormed := {
    whole_ne := by simp [Nat.toDigits_ne_nil]
    whole_digits := by
      intro c hc
      rcases List.mem_append.mp hc with hc | hc
      · exact isDigit_of_mem_toDigits c hc
      · exact mem_zeros hc
    no_leading_zero := by
      rcases hd with rfl | hd
      · simp [zeros, Nat.toDigits_zero]
      · exact no_leading_zero_append _ hd
    fraction := by simp
    exponent := by simp }
  notInteger := rfl
  magnitude := by
    apply magnitude_fraction rfl rfl (by simp)
    have hl := lt_pow_length_toDigits d.digits
    have hv : Nat.ofDigitChars 10 (Nat.toDigits 10 d.digits ++ zeros d.exponent.toNat ++ ['0']) 0 =
        10 * (10 ^ d.exponent.toNat * d.digits) := by
      rw [Nat.ofDigitChars_append, Nat.ofDigitChars_append, Nat.ofDigitChars_ten_toDigits, zeros,
        Nat.ofDigitChars_replicate_zero, Nat.ofDigitChars_cons, Nat.ofDigitChars_nil]
      simp
    simp only
    rw [hv]
    calc 10 * (10 ^ d.exponent.toNat * d.digits)
        ≤ 10 * (10 ^ d.exponent.toNat * 10 ^ (Nat.toDigits 10 d.digits).length) :=
          Nat.mul_le_mul_left _ (Nat.mul_le_mul_left _ (Nat.le_of_lt hl))
      _ = 10 ^ (1 + (d.exponent.toNat + (Nat.toDigits 10 d.digits).length)) := by
        rw [pow_add, pow_add, pow_one]
      _ ≤ 10 ^ 17 := Nat.pow_le_pow_right (by decide) (by omega)
      _ < 0x10000000000000000 := by decide

/-- Digits with the point among them. -/
theorem readsDouble_point {p : Nat} (hd : 0 < d.digits) (hm : d.digits ≤ 10 ^ 17) (hp : 0 < p)
    (hl : p < (Nat.toDigits 10 d.digits).length) :
    ReadsDouble ⟨negative, (Nat.toDigits 10 d.digits).take p,
      some ((Nat.toDigits 10 d.digits).drop p), none⟩ where
  wellFormed := {
    whole_ne := by
      intro h
      have := congrArg List.length h
      rw [List.length_take, List.length_nil] at this
      omega
    whole_digits := fun c hc => isDigit_of_mem_toDigits c (List.mem_of_mem_take hc)
    no_leading_zero := by
      obtain ⟨a, as, ha, hne⟩ := toDigits_head hd
      obtain ⟨p, rfl⟩ := Nat.exists_eq_succ_of_ne_zero (Nat.pos_iff_ne_zero.mp hp)
      intro c cs h
      rw [ha, List.take_succ_cons] at h
      exact hne (List.cons.inj h).1
    fraction := by
      rintro ds ⟨⟩
      exact ⟨fun h => by rw [List.drop_eq_nil_iff] at h; omega,
        fun c hc => isDigit_of_mem_toDigits c (List.mem_of_mem_drop hc)⟩
    exponent := by simp }
  notInteger := rfl
  magnitude := by
    apply magnitude_fraction rfl rfl
    · intro h
      rw [List.drop_eq_nil_iff] at h
      omega
    · simp only
      rw [List.take_append_drop, Nat.ofDigitChars_ten_toDigits]
      exact Nat.lt_of_le_of_lt hm (by decide)

/-- Zeros behind the point and digits behind them. -/
theorem readsDouble_small (k : Nat) (hm : d.digits ≤ 10 ^ 17) :
    ReadsDouble ⟨negative, ['0'], some (zeros k ++ Nat.toDigits 10 d.digits), none⟩ where
  wellFormed := {
    whole_ne := by simp
    whole_digits := by simp
    no_leading_zero := by simp
    fraction := by
      rintro ds ⟨⟩
      refine ⟨by simp [Nat.toDigits_ne_nil], fun c hc => ?_⟩
      rcases List.mem_append.mp hc with hc | hc
      · exact mem_zeros hc
      · exact isDigit_of_mem_toDigits c hc
    exponent := by simp }
  notInteger := rfl
  magnitude := by
    apply magnitude_fraction rfl rfl (by simp [Nat.toDigits_ne_nil])
    have hv : Nat.ofDigitChars 10 (['0'] ++ (zeros k ++ Nat.toDigits 10 d.digits)) 0 = d.digits := by
      rw [Nat.ofDigitChars_append, Nat.ofDigitChars_append, Nat.ofDigitChars_cons,
        Nat.ofDigitChars_nil, zeros, Nat.ofDigitChars_replicate_zero]
      simp [Nat.ofDigitChars_ten_toDigits]
    simp only
    rw [hv]
    exact Nat.lt_of_le_of_lt hm (by decide)

/-- The numeral with one digit in front of the point and an exponent. -/
def scientificNumeral (negative : Bool) (digits : List Char) (power : Int) : Numeral :=
  ⟨negative, digits.take 1, if (digits.drop 1).isEmpty then none else some (digits.drop 1),
    some (decide (power < 0), Nat.toDigits 10 power.natAbs)⟩

theorem scientific_fraction (digits : List Char) (power : Int) :
    (scientificNumeral negative digits power).fraction.getD [] = digits.drop 1 := by
  unfold scientificNumeral
  split_ifs with h
  · exact (List.isEmpty_iff.mp h).symm
  · rfl

theorem scientific_wellFormed (hd : 0 < d.digits) (power : Int) :
    (scientificNumeral negative (Nat.toDigits 10 d.digits) power).WellFormed := by
  obtain ⟨a, as, ha, hne⟩ := toDigits_head hd
  have hall := isDigit_of_mem_toDigits (k := d.digits)
  rw [ha] at hall ⊢
  constructor
  · simp [scientificNumeral]
  · simp [scientificNumeral, hall]
  · simp [scientificNumeral]
  · intro ds hds
    unfold scientificNumeral at hds
    cases as with
    | nil => simp at hds
    | cons b bs =>
      simp only [List.drop_succ_cons, List.drop_zero, List.isEmpty_cons, Bool.false_eq_true,
        if_false, Option.mem_some] at hds
      subst hds
      exact ⟨by simp, fun c hc => hall c (List.mem_cons_of_mem _ hc)⟩
  · rintro e ⟨⟩
    exact ⟨Nat.toDigits_ne_nil, isDigit_of_mem_toDigits⟩

theorem scientific_text (digits : List Char) (power : Int) :
    (scientificNumeral negative digits power).unsignedText =
      digits.take 1 ++ (if (digits.drop 1).isEmpty then [] else '.' :: digits.drop 1)
        ++ 'e' :: (if power < 0 then '-' else '+') :: Nat.toDigits 10 power.natAbs := by
  unfold unsignedText scientificNumeral
  dsimp only
  split_ifs <;> simp_all [fractionText, exponentText]

/-- One digit, the others behind the point, and the power of ten of the first. -/
theorem readsDouble_scientific (hd : 0 < d.digits) (hm : d.digits ≤ 10 ^ 17)
    (hs : 0 ≤ d.exponent → d.exponent.natAbs ≤ 308 ∧
      ∃ y, (Double.ofInt d.digits).mul? (powerOfTen d.exponent.natAbs) = some y) :
    ReadsDouble (scientificNumeral negative (Nat.toDigits 10 d.digits)
      ((Nat.toDigits 10 d.digits).length + d.exponent - 1)) where
  wellFormed := scientific_wellFormed negative hd _
  notInteger := by
    unfold toInteger? scientificNumeral
    split_ifs <;> rfl
  magnitude := by
    have hlen : (Nat.toDigits 10 d.digits).length ≤ 18 :=
      (Nat.length_toDigits_le_iff (by decide) (by decide)).mpr (Nat.lt_of_le_of_lt hm (by decide))
    have hpos : 0 < (Nat.toDigits 10 d.digits).length := Nat.length_toDigits_pos
    generalize hpower : ((Nat.toDigits 10 d.digits).length : Int) + d.exponent - 1 = power
    have hv : Nat.ofDigitChars 10 ((scientificNumeral negative (Nat.toDigits 10 d.digits)
        power).whole ++ (scientificNumeral negative (Nat.toDigits 10 d.digits)
        power).fraction.getD []) 0 = d.digits := by
      rw [scientific_fraction]
      simp only [scientificNumeral]
      rw [List.take_append_drop, Nat.ofDigitChars_ten_toDigits]
    have hsig := significand_eq (hv.trans_lt (Nat.lt_of_le_of_lt hm (by decide)))
    rw [hv, scientific_fraction, List.length_drop] at hsig
    have he : (scientificNumeral negative (Nat.toDigits 10 d.digits) power).exponent =
        some (decide (power < 0), Nat.toDigits 10 power.natAbs) := rfl
    have htotal : (if decide (power < 0) = true
        then -(((Nat.toDigits 10 d.digits).length - 1 : Nat) : Int) - power.natAbs
        else -(((Nat.toDigits 10 d.digits).length - 1 : Nat) : Int) + power.natAbs) =
          d.exponent := by
      simp only [decide_eq_true_eq]
      split_ifs <;> omega
    unfold magnitude
    simp only [he, hsig, Nat.ofDigitChars_ten_toDigits, htotal]
    rcases lt_or_ge d.exponent 0 with hneg | hnn
    · split_ifs with hbig hout
      · simp only [Bool.not_eq_true', decide_eq_false_iff_not, not_lt] at hout
        simp only [exponentLimit] at hbig
        omega
      · exact ⟨_, rfl⟩
      · exact scaleByTen_neg hneg _ _
    · obtain ⟨hfit, y, hy⟩ := hs hnn
      rw [if_neg (by simp only [exponentLimit]; omega)]
      refine ⟨y, ?_⟩
      unfold scaleByTen
      simp only [if_pos hfit, if_pos hnn, hy]

/-- However a decimal is laid out, it is read as a double. -/
theorem readsDouble_decimal
    (hd : d = ⟨0, 0⟩ ∨ 0 < d.digits ∧ d.digits ≤ 10 ^ 17)
    (hs : 0 < d.digits → 0 ≤ d.exponent → d.exponent.natAbs ≤ 308 ∧
      ∃ y, (Double.ofInt d.digits).mul? (powerOfTen d.exponent.natAbs) = some y) :
    ∃ n, ReadsDouble n ∧ n.negative = negative ∧ n.unsignedText = d.toText plainLayout := by
  have hwide : (plainLayout.wholeDigits : Int) = 16 := rfl
  have hpos : ¬ (0 ≤ d.exponent ∧ ((Nat.toDigits 10 d.digits).length : Int) + d.exponent ≤
      plainLayout.wholeDigits) → 0 < d.digits ∧ d.digits ≤ 10 ^ 17 := by
    rcases hd with rfl | hd
    · simp [Nat.toDigits_zero, hwide]
    · exact fun _ => hd
  unfold Decimal.toText
  dsimp only
  by_cases hwhole : 0 ≤ d.exponent ∧
      ((Nat.toDigits 10 d.digits).length : Int) + d.exponent ≤ plainLayout.wholeDigits
  · rw [if_pos hwhole]
    refine ⟨_, readsDouble_whole negative (hd.imp_right And.left) hwhole.1 (by omega), rfl, ?_⟩
    simp [unsignedText, fractionText, exponentText]
  rw [if_neg hwhole]
  by_cases hpoint : 0 < ((Nat.toDigits 10 d.digits).length : Int) + d.exponent ∧
      ((Nat.toDigits 10 d.digits).length : Int) + d.exponent ≤ plainLayout.wholeDigits
  · rw [if_pos hpoint]
    refine ⟨_, readsDouble_point negative
      (p := (((Nat.toDigits 10 d.digits).length : Int) + d.exponent).toNat)
      (hpos hwhole).1 (hpos hwhole).2 (by omega) (by omega), rfl, ?_⟩
    simp [unsignedText, fractionText, exponentText]
  rw [if_neg hpoint]
  by_cases hsmall : ((Nat.toDigits 10 d.digits).length : Int) + d.exponent ≤ 0 ∧
      -(plainLayout.leadingZeros : Int) ≤ (Nat.toDigits 10 d.digits).length + d.exponent
  · rw [if_pos hsmall]
    refine ⟨_, readsDouble_small negative
      (-(((Nat.toDigits 10 d.digits).length : Int) + d.exponent)).toNat (hpos hwhole).2, rfl, ?_⟩
    simp [unsignedText, fractionText, exponentText]
  · rw [if_neg hsmall]
    exact ⟨_, readsDouble_scientific negative (hpos hwhole).1 (hpos hwhole).2
      (hs (hpos hwhole).1), rfl, scientific_text negative _ _⟩

end Layouts

theorem units_pos {x : Double} (hx : x.isZero = false) : 0 < x.units := by
  have hb : x.bits ≠ 0 := by simpa [Double.isZero] using hx
  have hs : 0 < x.significand := by
    unfold Double.significand
    split_ifs
    · omega
    · have := Double.pow_two_pos 52
      omega
  exact Nat.mul_pos hs (Double.pow_two_pos _)

/-- The text of every double is that of a numeral that reads as a double. -/
theorem exists_numeral (x : Double) : ∃ n, ReadsDouble n ∧ n.text = x.toText := by
  unfold Double.toText
  cases hz : x.isZero with
  | true =>
    obtain ⟨n, hn, hneg, ht⟩ := readsDouble_decimal (d := ⟨0, 0⟩) x.negative (.inl rfl) (by simp)
    refine ⟨n, hn, ?_⟩
    rw [Numeral.text, hneg, ht]
    rfl
  | false =>
    have hx := units_pos hz
    have hd : x.shortest = ⟨0, 0⟩ ∨ 0 < x.shortest.digits ∧ x.shortest.digits ≤ 10 ^ 17 :=
      (Double.shortest_cases hx).imp_right fun h => ⟨h.1, h.2.1⟩
    obtain ⟨n, hn, hneg, ht⟩ := readsDouble_decimal x.negative hd (shortest_mul_isSome hx)
    refine ⟨n, hn, ?_⟩
    rw [Numeral.text, hneg, ht]
    rfl

/-- A double is read back as a double, though not always as itself. -/
theorem exists_readNumber_double (x : Double) :
    ∃ y, ∀ rest, Ends rest → readNumber (x.toText ++ rest) = .ok (.double y, rest) := by
  obtain ⟨n, hn, ht⟩ := exists_numeral x
  rw [← ht]
  exact readNumber_numeral hn

theorem readNumber_toText (n : Number) (hr : Ends rest) :
    readNumber (n.toText ++ rest) = .ok (n.reread, rest) := by
  cases n with
  | integer n => exact readNumber_integer n hr
  | double x =>
    obtain ⟨y, hy⟩ := exists_readNumber_double x
    have hre : x.reread = y := by
      have he : Ends [] := by simp [Ends]
      have := hy [] he
      rw [List.append_nil] at this
      simp only [Double.reread, this]
    rw [Number.reread, hre]
    exact hy rest hr

/-- The text of a number begins as numbers do. -/
theorem number_head (n : Number) : ∃ c cs, n.toText = c :: cs ∧ (c = '-' ∨ c.isDigit = true) := by
  have htext : ∃ m : Numeral, m.WellFormed ∧ m.text = n.toText := by
    cases n with
    | integer n => exact ⟨_, wholeNumeral_wellFormed _ _, (integer_text n).symm⟩
    | double x =>
      obtain ⟨m, hm, ht⟩ := exists_numeral x
      exact ⟨m, hm.wellFormed, ht⟩
  obtain ⟨m, hm, ht⟩ := htext
  obtain ⟨c, cs, hc, hd⟩ := unsignedText_head hm
  rw [← ht, Numeral.text]
  cases m.negative with
  | true => exact ⟨'-', _, rfl, .inl rfl⟩
  | false => exact ⟨c, cs, hc, .inr hd⟩

end Json
end Planner

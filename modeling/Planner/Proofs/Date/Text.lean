import Mathlib.Data.String.Basic
import Planner.Date.Window
import Planner.Proofs.Date.Calendar

/-! Days as text: the text of a day is read as that day and as no other, and from the year 0 to 9999
the texts stand in the order of the days. -/
namespace Planner.Date

open Calendar

variable {width n m : Nat} {d e : Date} {digits rest xs ys zs us : List Char}

/-! ### Numbers -/

theorem length_padded (hwidth : 0 < width) (h : n < 10 ^ width) :
    (padded width n).length = width := by
  have hdigits := (Nat.length_toDigits_le_iff (by decide) hwidth).mpr h
  simp only [padded, List.length_append, List.length_replicate]
  omega

theorem padded_ne_nil : padded width n ≠ [] :=
  List.append_ne_nil_of_right_ne_nil _ Nat.toDigits_ne_nil

theorem isDigit_padded : ∀ c ∈ padded width n, c.isDigit = true := by
  intro c hc
  obtain hzero | hdigit := List.mem_append.mp hc
  · rw [(List.mem_replicate.mp hzero).2]
    rfl
  · exact Nat.isDigit_of_mem_toDigits (by decide) (by decide) hdigit

/-- Zeros in front do not count. -/
theorem ofDigitChars_padded (width n : Nat) : Nat.ofDigitChars 10 (padded width n) 0 = n := by
  have hzeros : ∀ k, Nat.ofDigitChars 10 (List.replicate k '0') 0 = 0 := by
    intro k
    induction k with
    | zero => rfl
    | succ k ih => simp [List.replicate_succ, Nat.ofDigitChars_cons, ih]
  rw [padded, Nat.ofDigitChars_append, hzeros, Nat.ofDigitChars_ten_toDigits]

/-- The last digit stands behind the others. -/
theorem padded_succ (hwidth : 0 < width) (n : Nat) :
    padded (width + 1) n = padded width (n / 10) ++ [(n % 10).digitChar] := by
  obtain ⟨zeros, rfl⟩ := Nat.exists_eq_add_of_le' hwidth
  by_cases hn : n < 10
  · simp only [padded, Nat.toDigits_of_lt_base hn, Nat.div_eq_of_lt hn, Nat.mod_eq_of_lt hn,
      Nat.toDigits_zero, List.length_singleton, Nat.add_sub_cancel, List.replicate_succ']
  · rw [padded, padded, Nat.toDigits_of_base_le (by decide) (Nat.le_of_not_lt hn),
      List.length_append, List.length_singleton, Nat.add_sub_add_right, List.append_assoc]

theorem digitChar_lt (h : n < m) (hm : m < 10) : n.digitChar < m.digitChar := by
  have hchars : ∀ m : Fin 10, ∀ n : Fin m, n.val.digitChar < m.val.digitChar := by decide
  exact hchars ⟨m, hm⟩ ⟨n, h⟩

/-- What stands behind texts of one length does not change their order. -/
theorem append_lt_append (hlength : xs.length = ys.length) (h : xs < ys) :
    xs ++ zs < ys ++ us := by
  induction xs generalizing ys with
  | nil =>
    rw [List.eq_nil_of_length_eq_zero hlength.symm] at h
    exact absurd h (List.lt_irrefl _)
  | cons x xs ih =>
    cases ys with
    | nil => cases hlength
    | cons y ys =>
      obtain hlt | ⟨rfl, hrest⟩ := List.cons_lt_cons_iff.mp h
      · exact List.cons_lt_cons_iff.mpr (.inl hlt)
      · exact List.cons_lt_cons_iff.mpr (.inr ⟨rfl, ih (Nat.succ.inj hlength) hrest⟩)

/-- Numbers of so many digits are in the order of their texts. -/
theorem padded_lt (hwidth : 0 < width) (hlt : n < m) (hm : m < 10 ^ width) :
    padded width n < padded width m := by
  induction width, hwidth using Nat.le_induction generalizing n m with
  | base =>
    rw [pow_one] at hm
    have hchars : [n.digitChar] < [m.digitChar] :=
      List.cons_lt_cons_iff.mpr (.inl (digitChar_lt hlt hm))
    simpa [padded, Nat.toDigits_of_lt_base, hm, hlt.trans hm] using hchars
  | succ width hwidth ih =>
    have hwhole : m / 10 < 10 ^ width := Nat.div_lt_of_lt_mul (by rwa [← pow_succ'])
    rw [padded_succ hwidth, padded_succ hwidth]
    obtain hless | heq := Nat.lt_or_eq_of_le (Nat.div_le_div_right (c := 10) hlt.le)
    · refine append_lt_append ?_ (ih hless hwhole)
      rw [length_padded hwidth hwhole, length_padded hwidth (hless.trans hwhole)]
    · rw [heq]
      refine List.append_left_lt (List.cons_lt_cons_iff.mpr (.inl (digitChar_lt ?_ ?_)))
      · omega
      · exact Nat.mod_lt _ (by decide)

/-! ### Reading -/

theorem not_isBlank_digit {c : Char} (h : c.isDigit = true) : Text.isBlank c = false := by
  simp only [Char.isDigit, UInt32.le_iff_toNat_le, Bool.and_eq_true, decide_eq_true_eq] at h
  have hrange : 48 ≤ c.toNat ∧ c.toNat ≤ 57 := h
  simp only [Text.isBlank, Text.blankBounds, Text.inRanges]
  simp
  omega

/-- No space stands in front of digits. -/
theorem trimStart_digits (hne : digits ≠ []) (hdigits : ∀ c ∈ digits, c.isDigit = true) :
    Text.trimStart (digits ++ rest) = digits ++ rest := by
  obtain ⟨c, cs, rfl⟩ := List.exists_cons_of_ne_nil hne
  rw [List.cons_append, Text.trimStart, List.dropWhile_cons,
    not_isBlank_digit (hdigits c List.mem_cons_self)]
  rfl

theorem takeWhile_digits (hdigits : ∀ c ∈ digits, c.isDigit = true)
    (hrest : ∀ c ∈ rest.head?, c.isDigit = false) :
    (digits ++ rest).takeWhile Char.isDigit = digits := by
  rw [List.takeWhile_append_of_pos hdigits]
  cases rest with
  | nil => simp
  | cons c cs => simp [hrest c rfl]

/-- As many digits are read as are allowed. -/
theorem readDigits_some (hne : digits ≠ []) (hdigits : ∀ c ∈ digits, c.isDigit = true) :
    readDigits (some digits.length) (digits ++ rest) =
      .ok (Nat.ofDigitChars 10 digits 0, rest) := by
  have hfront : ((digits ++ rest).take digits.length).takeWhile Char.isDigit = digits := by
    rw [List.take_left]
    have hstop : ∀ c ∈ ([] : List Char).head?, c.isDigit = false := by simp
    simpa using takeWhile_digits hdigits hstop
  simp only [readDigits, hfront, List.isEmpty_eq_false_iff.mpr hne, Bool.false_eq_true, if_false,
    List.drop_left]

/-- Without a limit all digits are read, up to another character. -/
theorem readDigits_none (hne : digits ≠ []) (hdigits : ∀ c ∈ digits, c.isDigit = true)
    (hrest : ∀ c ∈ rest.head?, c.isDigit = false) :
    readDigits none (digits ++ rest) = .ok (Nat.ofDigitChars 10 digits 0, rest) := by
  simp only [readDigits, takeWhile_digits hdigits hrest, List.isEmpty_eq_false_iff.mpr hne,
    Bool.false_eq_true, if_false, List.drop_left]

theorem readSignedYear_digits (hne : digits ≠ []) (hdigits : ∀ c ∈ digits, c.isDigit = true)
    (hlength : digits.length = 4) : readSignedYear (digits ++ rest) =
      .ok ((Nat.ofDigitChars 10 digits 0 : Int), rest) := by
  have hread : readDigits (some digits.length) (digits ++ rest) = _ := readDigits_some hne hdigits
  obtain ⟨c, cs, rfl⟩ := List.exists_cons_of_ne_nil hne
  have hc := hdigits c List.mem_cons_self
  rw [hlength] at hread
  unfold readSignedYear
  split
  · rename_i heq
    cases heq
    cases hc
  · rename_i heq
    cases heq
    cases hc
  · rw [hread]
    rfl

/-- The texts of years are read as the years. -/
theorem readSignedYear_yearText (year : Int) :
    readSignedYear (yearText year ++ '-' :: rest) = .ok (year, '-' :: rest) := by
  have hdash : ∀ c ∈ ('-' :: rest).head?, c.isDigit = false := by simp
  have hall : readDigits none (padded 4 year.natAbs ++ '-' :: rest) = _ :=
    readDigits_none padded_ne_nil isDigit_padded hdash
  rw [ofDigitChars_padded] at hall
  unfold yearText
  split_ifs with hneg hlong
  · have hyear : -(year.natAbs : Int) = year := by omega
    simp only [List.cons_append, readSignedYear, hall, bind, Except.bind, pure, Except.pure, hyear]
  · have hyear : (year.natAbs : Int) = year := by omega
    simp only [List.cons_append, readSignedYear, hall, bind, Except.bind, pure, Except.pure, hyear]
  · have hyear : (year.natAbs : Int) = year := by omega
    rw [readSignedYear_digits padded_ne_nil isDigit_padded (length_padded (by decide) (by omega)),
      ofDigitChars_padded, hyear]

theorem trimStart_yearText (year : Int) :
    Text.trimStart (yearText year ++ rest) = yearText year ++ rest := by
  unfold yearText
  split_ifs
  · rfl
  · rfl
  · exact trimStart_digits padded_ne_nil isDigit_padded

theorem readYear_yearText {year : Int} (hlow : firstYear ≤ year) (hhigh : year ≤ lastYear) :
    readYear (yearText year ++ '-' :: rest) = .ok (year, '-' :: rest) := by
  unfold firstYear at hlow
  unfold lastYear at hhigh
  rw [readYear, trimStart_yearText, readSignedYear_yearText]
  exact if_pos (by omega)

theorem readPart_padded {most : Nat} (hlow : 1 ≤ n) (hhigh : n ≤ most) (hmost : n < 100) :
    readPart most (padded 2 n ++ rest) = .ok (n, rest) := by
  have hread : readDigits (some (padded 2 n).length) (padded 2 n ++ rest) = _ :=
    readDigits_some padded_ne_nil isDigit_padded
  rw [length_padded (by decide) hmost, ofDigitChars_padded] at hread
  rw [readPart, trimStart_digits padded_ne_nil isDigit_padded, hread]
  exact if_pos ⟨hlow, hhigh⟩

theorem month_day_bounds (d : Date) : 1 ≤ d.month ∧ d.month ≤ 12 ∧ 1 ≤ d.day ∧ d.day ≤ 31 := by
  obtain ⟨index, hindex, hmonth, hlow, hhigh⟩ := month_of_hasDay d.exists_day
  have hall : ∀ length ∈ monthLengths d.year, length ≤ 31 := by
    unfold monthLengths
    split_ifs <;> decide
  have hlength := hall _ (List.getElem_mem hindex)
  omega

/-- The text of a day is read to its end and no further. -/
theorem ofChars_append (d : Date) (rest : List Char) :
    ofChars (d.toChars ++ rest) = if rest = [] then .ok d else .error .tooLong := by
  obtain ⟨hmonth, hmonths, hday, hdays⟩ := d.month_day_bounds
  have hyear : readYear (yearText d.year ++
      '-' :: (padded 2 d.month ++ '-' :: (padded 2 d.day ++ rest))) = _ :=
    readYear_yearText d.exists_day.1 d.exists_day.2.1
  have hmonthRead : readPart 12 (padded 2 d.month ++ '-' :: (padded 2 d.day ++ rest)) = _ :=
    readPart_padded hmonth hmonths (by omega)
  have hdayRead : readPart 31 (padded 2 d.day ++ rest) = _ := readPart_padded hday hdays (by omega)
  have hmake : make? d.year d.month d.day = some d := dif_pos d.exists_day
  have hsplit : d.toChars ++ rest = yearText d.year ++
      '-' :: (padded 2 d.month ++ '-' :: (padded 2 d.day ++ rest)) := by
    simp [toChars]
  simp only [ofChars, hsplit, hyear, readDash, hmonthRead, hdayRead, hmake, bind, Except.bind,
    if_true]
  cases rest <;> rfl

/-- The text of a day is read as that day. -/
theorem ofText_toText (d : Date) : ofText d.toText = .ok d := by
  have hread := d.ofChars_append []
  rw [List.append_nil, if_pos rfl] at hread
  rwa [ofText, toText, String.toList_ofList]

theorem toText_injective : Function.Injective toText := fun d e h =>
  Except.ok.inj ((ofText_toText d).symm.trans (h ▸ ofText_toText e))

/-! ### Order -/

/-- A year that is written with four digits and no sign. -/
structure FourDigits (d : Date) : Prop where
  low : 0 ≤ d.year
  high : d.year ≤ 9999

theorem toChars_fourDigits (h : d.FourDigits) : d.toChars =
    padded 4 d.year.natAbs ++ ('-' :: (padded 2 d.month ++ ('-' :: padded 2 d.day))) := by
  rw [toChars, yearText, if_neg (by have := h.low; omega), if_neg (by have := h.high; omega),
    List.append_assoc]
  rfl

/-- The month of a later day in the same year is the same or later. -/
theorem daysBeforeMonth_add_lt {year : Int} {month day month' day' : Nat}
    (h : HasDay year month day) (h' : HasDay year month' day') (hlt : month < month') :
    daysBeforeMonth year month + day ≤ daysBeforeMonth year month' := by
  obtain ⟨index, hindex, rfl, -, hhigh⟩ := month_of_hasDay h
  obtain ⟨index', hindex', rfl, -, -⟩ := month_of_hasDay h'
  rw [daysBeforeMonth_eq, daysBeforeMonth_eq, Nat.add_sub_cancel, Nat.add_sub_cancel]
  calc ((monthLengths year).take index).sum + day
      ≤ ((monthLengths year).take index).sum + (monthLengths year)[index] := by omega
    _ = ((monthLengths year).take (index + 1)).sum := (List.sum_take_succ _ _ hindex).symm
    _ ≤ ((monthLengths year).take index').sum :=
      List.monotone_sum_take (monthLengths year) (Nat.lt_of_succ_lt_succ hlt)

/-- Of two days the earlier has the lesser year, or month of the year, or day of the month. -/
theorem lt_cases (h : d.number < e.number) : d.year < e.year ∨ d.year = e.year ∧
    (d.month < e.month ∨ d.month = e.month ∧ d.day < e.day) := by
  obtain ⟨hlow, -⟩ := d.number_bounds
  obtain ⟨-, hhigh⟩ := e.number_bounds
  obtain hyear | hyear | hyear := lt_trichotomy d.year e.year
  · exact .inl hyear
  · refine .inr ⟨hyear, ?_⟩
    obtain hmonth | hmonth | hmonth := lt_trichotomy d.month e.month
    · exact .inl hmonth
    · refine .inr ⟨hmonth, ?_⟩
      simp only [number, hyear, hmonth] at h
      omega
    · have hless := daysBeforeMonth_add_lt e.exists_day (hyear ▸ d.exists_day) hmonth
      simp only [number, hyear] at h
      have := d.exists_day.2.2.1
      omega
  · have hless := daysBeforeYear_strictMono.monotone (Int.add_one_le_of_lt hyear)
    omega

theorem toChars_lt (hd : d.FourDigits) (he : e.FourDigits) (h : d.number < e.number) :
    d.toChars < e.toChars := by
  obtain ⟨-, hmonths, -, hdays⟩ := e.month_day_bounds
  obtain ⟨-, hmonths', -, hdays'⟩ := d.month_day_bounds
  have := hd.low
  have := hd.high
  have := he.low
  have := he.high
  rw [toChars_fourDigits hd, toChars_fourDigits he]
  obtain hyear | ⟨hyear, hmonth | ⟨hmonth, hday⟩⟩ := lt_cases h
  · refine append_lt_append ?_ (padded_lt (by decide) (by omega) (by omega))
    rw [length_padded (by decide) (by omega), length_padded (by decide) (by omega)]
  · rw [hyear]
    refine List.append_left_lt (List.cons_lt_cons_iff.mpr (.inr ⟨rfl, ?_⟩))
    refine append_lt_append ?_ (padded_lt (by decide) hmonth (by omega))
    rw [length_padded (by decide) (by omega), length_padded (by decide) (by omega)]
  · rw [hyear, hmonth]
    refine List.append_left_lt (List.cons_lt_cons_iff.mpr (.inr ⟨rfl, ?_⟩))
    refine List.append_left_lt (List.cons_lt_cons_iff.mpr (.inr ⟨rfl, ?_⟩))
    exact padded_lt (by decide) hday (by omega)

/-- From the year 0 to 9999 the texts of days are in the order of the days. -/
theorem toText_le_iff (hd : d.FourDigits) (he : e.FourDigits) :
    d.toText ≤ e.toText ↔ d.number ≤ e.number := by
  have htext : ∀ {d e : Date}, d.FourDigits → e.FourDigits → d.number < e.number →
      d.toText < e.toText := by
    intro d e hd he hlt
    simpa only [toText, String.lt_iff_toList_lt, String.toList_ofList] using toChars_lt hd he hlt
  constructor
  · intro hle
    by_contra hlt
    exact (htext he hd (Int.not_le.mp hlt)).not_ge hle
  · intro hle
    obtain hlt | heq := Int.lt_or_eq_of_le hle
    · exact (htext hd he hlt).le
    · rw [number_injective heq]

/-- A text between another and what that one begins begins with it, too. -/
theorem exists_append_of_between (hlow : ¬ ys < xs) (hhigh : ¬ xs ++ zs < ys) :
    ∃ rest, ys = xs ++ rest := by
  induction xs generalizing ys with
  | nil => exact ⟨ys, rfl⟩
  | cons x xs ih =>
    cases ys with
    | nil => exact absurd (List.nil_lt_cons x xs) hlow
    | cons y ys =>
      rw [List.cons_lt_cons_iff, not_or] at hlow
      rw [List.cons_append, List.cons_lt_cons_iff, not_or] at hhigh
      obtain rfl : x = y := Std.Trichotomous.trichotomous x y hhigh.1 hlow.1
      obtain ⟨rest, rfl⟩ := ih (fun h => hlow.2 ⟨rfl, h⟩) (fun h => hhigh.2 ⟨rfl, h⟩)
      exact ⟨rest, rfl⟩

/-- Of all texts of a day only that with four, two and two digits lies in the window of the day. -/
theorem eq_toText_of_between {text : String} (hread : ofText text = .ok d) (hlow : d.toText ≤ text)
    (hhigh : text ≤ Window.endOfDay d) : text = d.toText := by
  rw [← not_lt, String.lt_iff_toList_lt, toText, String.toList_ofList] at hlow
  rw [← not_lt, String.lt_iff_toList_lt, Window.endOfDay, String.toList_append, toText,
    String.toList_ofList] at hhigh
  obtain ⟨rest, hrest⟩ := exists_append_of_between hlow hhigh
  rw [ofText, hrest, ofChars_append] at hread
  split_ifs at hread with hempty
  rw [hempty, List.append_nil] at hrest
  rw [toText, ← hrest, String.ofList_toList]

end Planner.Date

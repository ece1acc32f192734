import Mathlib.Tactic
import Planner.Date

/-! The days of the calendar and their numbers: each day has one number, and the numbers from that of
the first day to that of the last are those of days. -/
namespace Planner

namespace Calendar

variable {year n : Int} {month day : Nat}

/-! ### Years -/

theorem daysBeforeYear_succ (year : Int) :
    daysBeforeYear (year + 1) = daysBeforeYear year + (monthLengths year).sum := by
  have hsum : ((monthLengths year).sum : Int) = 365 + if isLeap year then 1 else 0 := by
    unfold monthLengths
    split_ifs <;> rfl
  have hleap : isLeap year = true ↔ year % 4 = 0 ∧ (year % 100 ≠ 0 ∨ year % 400 = 0) := by
    simp [isLeap]
  rw [hsum]
  unfold daysBeforeYear
  split_ifs with h
  · have := hleap.mp h
    omega
  · have := mt hleap.mpr h
    omega

theorem daysBeforeYear_strictMono : StrictMono daysBeforeYear := by
  refine strictMono_int_of_lt_succ fun year => ?_
  unfold daysBeforeYear
  omega

/-- The mean length of a year gives a year or one next to it. -/
theorem daysBeforeYear_near (n : Int) : daysBeforeYear (n * 400 / 146097 - 1) ≤ n ∧
    n < daysBeforeYear (n * 400 / 146097 + 2) := by
  obtain ⟨guess, hguess⟩ : ∃ guess, n * 400 / 146097 = guess := ⟨_, rfl⟩
  rw [hguess]
  unfold daysBeforeYear
  constructor <;> omega

theorem yearOfDay_spec (n : Int) :
    daysBeforeYear (yearOfDay n) ≤ n ∧ n < daysBeforeYear (yearOfDay n + 1) := by
  obtain ⟨hlow, hhigh⟩ := daysBeforeYear_near n
  unfold yearOfDay
  generalize n * 400 / 146097 = guess at hlow hhigh ⊢
  dsimp only
  split_ifs with hbefore hafter
  · rw [Int.sub_add_cancel]
    exact ⟨hlow, hbefore⟩
  · exact ⟨hafter, by rwa [Int.add_assoc]⟩
  · exact ⟨Int.not_lt.mp hbefore, Int.not_le.mp hafter⟩

/-- A number is that of a day in one year only. -/
theorem yearOfDay_eq (hlow : daysBeforeYear year ≤ n) (hhigh : n < daysBeforeYear (year + 1)) :
    yearOfDay n = year := by
  obtain ⟨hlow', hhigh'⟩ := yearOfDay_spec n
  have hle := daysBeforeYear_strictMono.lt_iff_lt.mp (hlow.trans_lt hhigh')
  have hge := daysBeforeYear_strictMono.lt_iff_lt.mp (hlow'.trans_lt hhigh)
  omega

/-! ### Months -/

/-- A day of the year is a day of a month, counted from one. -/
theorem monthOfDay_eq (first : Nat) {lengths : List Nat} {index day : Nat} (h : index < lengths.length)
    (hday : day < lengths[index]) :
    monthOfDay first lengths ((lengths.take index).sum + day) = (first + index, day + 1) := by
  induction lengths generalizing first index with
  | nil => cases h
  | cons length rest ih =>
    cases index with
    | zero =>
      have hlength : day < length := hday
      unfold monthOfDay
      simp [hlength]
    | succ index =>
      have hrest := ih (first + 1) (Nat.lt_of_succ_lt_succ h) hday
      unfold monthOfDay
      rw [List.take_succ_cons, List.sum_cons, if_neg (by omega), Nat.add_assoc,
        Nat.add_sub_cancel_left, hrest, Nat.add_right_comm, Nat.add_assoc]

/-- Every day of the year is a day of some month. -/
theorem exists_month {lengths : List Nat} {day : Nat} (h : day < lengths.sum) :
    ∃ index, ∃ hindex : index < lengths.length, ∃ rest < lengths[index],
      day = (lengths.take index).sum + rest := by
  induction lengths generalizing day with
  | nil => simp at h
  | cons length others ih =>
    by_cases hfirst : day < length
    · exact ⟨0, Nat.succ_pos _, day, hfirst, by simp⟩
    · rw [List.sum_cons] at h
      have hothers : day - length < others.sum := by omega
      obtain ⟨index, hindex, rest, hrest, heq⟩ := ih hothers
      refine ⟨index + 1, Nat.succ_lt_succ hindex, rest, hrest, ?_⟩
      rw [List.take_succ_cons, List.sum_cons]
      omega

theorem daysBeforeMonth_eq (year : Int) (month : Nat) :
    daysBeforeMonth year month = ((monthLengths year).take (month - 1)).sum :=
  (List.sum_eq_foldl ..).symm

theorem length_monthLengths (year : Int) : (monthLengths year).length = 12 := rfl

/-- A month of the year, by its place in the list of lengths. -/
theorem daysInMonth_succ (year : Int) {index : Nat} (h : index < (monthLengths year).length) :
    daysInMonth year (index + 1) = (monthLengths year)[index] := by
  simp [daysInMonth, List.getD_eq_getElem?_getD, h]

/-- A month with a day is one of the twelve. -/
theorem month_of_hasDay (h : HasDay year month day) : ∃ index, ∃ hindex : index < 12,
    month = index + 1 ∧ 1 ≤ day ∧ day ≤ (monthLengths year)[index] := by
  obtain ⟨-, -, hlow, hhigh⟩ := h
  cases month with
  | zero =>
    rw [daysInMonth, if_pos rfl] at hhigh
    omega
  | succ index =>
    by_cases hindex : index < 12
    · exact ⟨index, hindex, rfl, hlow, daysInMonth_succ year hindex ▸ hhigh⟩
    · have hnone : daysInMonth year (index + 1) = 0 := by
        simp [daysInMonth, List.getD_eq_getElem?_getD, length_monthLengths, hindex]
      omega

end Calendar

namespace Date

open Calendar

variable {d e : Date} {n : Int}

/-- The last day there is. -/
def last : Date := ⟨lastYear, 12, 31, by decide⟩

/-- A day is the day so many after the days of the years and months before it. -/
theorem number_eq (d : Date) : ∃ index, ∃ hindex : index < (monthLengths d.year).length,
    d.month = index + 1 ∧ 1 ≤ d.day ∧ d.day ≤ (monthLengths d.year)[index] ∧
      d.number = daysBeforeYear d.year + ↑(((monthLengths d.year).take index).sum + (d.day - 1)) := by
  obtain ⟨index, hindex, hmonth, hlow, hhigh⟩ := month_of_hasDay d.exists_day
  refine ⟨index, hindex, hmonth, hlow, hhigh, ?_⟩
  rw [number, daysBeforeMonth_eq, hmonth, Nat.add_sub_cancel]
  omega

theorem number_bounds (d : Date) :
    daysBeforeYear d.year ≤ d.number ∧ d.number < daysBeforeYear (d.year + 1) := by
  obtain ⟨index, hindex, -, hlow, hhigh, hnumber⟩ := d.number_eq
  have hsplit := List.sum_take_add_sum_drop (monthLengths d.year) (index + 1)
  rw [List.sum_take_succ _ _ hindex] at hsplit
  rw [daysBeforeYear_succ, hnumber]
  omega

theorem ofNumber?_number (d : Date) : ofNumber? d.number = some d := by
  obtain ⟨hlow, hhigh⟩ := d.number_bounds
  obtain ⟨index, hindex, hmonth, hday, hlength, hnumber⟩ := d.number_eq
  have hrest : (d.number - daysBeforeYear d.year).toNat =
      ((monthLengths d.year).take index).sum + (d.day - 1) := by omega
  unfold ofNumber?
  dsimp only
  rw [yearOfDay_eq hlow hhigh, hrest, monthOfDay_eq 1 hindex (by omega)]
  dsimp only
  rw [Nat.add_comm 1 index, ← hmonth, Nat.sub_add_cancel hday, make?, dif_pos d.exists_day]

/-- A number is that of some day, of any year. -/
theorem ofNumber?_eq (n : Int) : ∃ month day, 1 ≤ day ∧ day ≤ daysInMonth (yearOfDay n) month ∧
    ofNumber? n = make? (yearOfDay n) month day ∧
      daysBeforeYear (yearOfDay n) + daysBeforeMonth (yearOfDay n) month + day - 1 = n := by
  obtain ⟨hlow, hhigh⟩ := yearOfDay_spec n
  rw [daysBeforeYear_succ] at hhigh
  have hlength : (n - daysBeforeYear (yearOfDay n)).toNat < (monthLengths (yearOfDay n)).sum := by
    omega
  obtain ⟨index, hindex, rest, hrest, hday⟩ := exists_month hlength
  refine ⟨index + 1, rest + 1, Nat.succ_pos _, daysInMonth_succ _ hindex ▸ hrest, ?_, ?_⟩
  · unfold ofNumber?
    dsimp only
    rw [hday, monthOfDay_eq 1 hindex hrest, Nat.add_comm 1 index]
  · rw [daysBeforeMonth_eq, Nat.add_sub_cancel]
    omega

theorem ofNumber?_eq_some_iff : ofNumber? n = some d ↔ d.number = n := by
  constructor
  · intro h
    obtain ⟨month, day, -, -, hmake, hnumber⟩ := ofNumber?_eq n
    rw [hmake, make?] at h
    split_ifs at h
    cases h
    exact hnumber
  · rintro rfl
    exact ofNumber?_number d

theorem number_injective : Function.Injective number := fun d e h =>
  Option.some.inj ((ofNumber?_number d).symm.trans (h ▸ ofNumber?_number e))

/-- The numbers of days are those from the number of the first to that of the last. -/
theorem exists_number_eq_iff : (∃ d : Date, d.number = n) ↔ first.number ≤ n ∧ n ≤ last.number := by
  have hfirst : first.number = daysBeforeYear firstYear := rfl
  have hlast : last.number + 1 = daysBeforeYear (lastYear + 1) := rfl
  have hmono := daysBeforeYear_strictMono.monotone
  constructor
  · rintro ⟨d, rfl⟩
    obtain ⟨hlow, hhigh⟩ := d.number_bounds
    have := hmono d.exists_day.1
    have := hmono (Int.add_le_add_right d.exists_day.2.1 1)
    omega
  · rintro ⟨hlow, hhigh⟩
    obtain ⟨month, day, hday, hlength, hmake, -⟩ := ofNumber?_eq n
    obtain ⟨hyear, hnext⟩ := yearOfDay_spec n
    have hbelow := daysBeforeYear_strictMono.lt_iff_lt.mp (show daysBeforeYear firstYear <
      daysBeforeYear (yearOfDay n + 1) by omega)
    have habove := daysBeforeYear_strictMono.lt_iff_lt.mp (show daysBeforeYear (yearOfDay n) <
      daysBeforeYear (lastYear + 1) by omega)
    have hasDay : HasDay (yearOfDay n) month day := ⟨by omega, by omega, hday, hlength⟩
    rw [make?, dif_pos hasDay] at hmake
    exact ⟨_, ofNumber?_eq_some_iff.mp hmake⟩

theorem addDays?_eq_some_iff : d.addDays? n = some e ↔ e.number = d.number + n :=
  ofNumber?_eq_some_iff

theorem isSome_addDays?_iff : (d.addDays? n).isSome ↔
    first.number ≤ d.number + n ∧ d.number + n ≤ last.number := by
  rw [← exists_number_eq_iff, Option.isSome_iff_exists]
  exact exists_congr fun e => addDays?_eq_some_iff

end Date
end Planner

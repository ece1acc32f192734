import Planner.Instant
import Planner.Proofs.Date.Text
import Planner.Proofs.Date.Window

/-! The days of a window as a span of the calendar, and the texts of days and of moments in it: from
the year 0 to 9999 a text lies between those that bound the window exactly if its day is in it. -/
namespace Planner

open Calendar

namespace Date

variable {d e next : Date}

/-- Days are ordered by the year, the month of the year and the day of the month. -/
theorem number_lt_iff : d.number < e.number ↔ d.year < e.year ∨ d.year = e.year ∧
    (d.month < e.month ∨ d.month = e.month ∧ d.day < e.day) := by
  refine ⟨lt_cases, fun h => ?_⟩
  by_contra hnot
  obtain hlt | heq := Int.lt_or_eq_of_le (Int.not_lt.mp hnot)
  · have hcases := lt_cases hlt
    omega
  · cases number_injective heq
    omega

theorem nextMonth?_cases (h : d.nextMonth? = some next) : next.day = 1 ∧
    (d.month = 12 ∧ next.year = d.year + 1 ∧ next.month = 1 ∨
      d.month ≠ 12 ∧ next.year = d.year ∧ next.month = d.month + 1) := by
  unfold nextMonth? make? at h
  split_ifs at h with hmonth
  · cases h
    exact ⟨rfl, .inl ⟨hmonth, rfl, rfl⟩⟩
  · cases h
    exact ⟨rfl, .inr ⟨hmonth, rfl, rfl⟩⟩

/-- The days of a month are those from its first day to the one before the next month. -/
theorem sameMonth_iff (h : d.monthStart.nextMonth? = some next) :
    e.year = d.year ∧ e.month = d.month ↔
      d.monthStart.number ≤ e.number ∧ e.number + 1 ≤ next.number := by
  have hnext := nextMonth?_cases h
  have hbounds := d.month_day_bounds
  have hbounds' := e.month_day_bounds
  rw [← Int.not_lt, Int.add_one_le_iff, number_lt_iff, number_lt_iff]
  simp only [monthStart] at hnext ⊢
  omega

/-- The days of the years from 0 to 9999. -/
theorem FourDigits.number_bounds (h : d.FourDigits) : 0 ≤ d.number ∧ d.number < 3652425 := by
  have hbounds := Date.number_bounds d
  have hmono := daysBeforeYear_strictMono.monotone
  have hlow := hmono h.low
  have hhigh := hmono (Int.add_le_add_right h.high 1)
  have hfirst : daysBeforeYear 0 = 0 := rfl
  have hlast : daysBeforeYear (9999 + 1) = 3652425 := rfl
  omega

/-- A year before 0 is written with a sign, which stands before all digits. -/
theorem toText_lt_of_year_neg (hd : d.year < 0) (he : e.FourDigits) : d.toText < e.toText := by
  rw [String.lt_iff_toList_lt, toText, toText, String.toList_ofList, String.toList_ofList,
    toChars_fourDigits he]
  have hne : padded 4 e.year.natAbs ≠ [] := padded_ne_nil
  obtain ⟨c, cs, hc⟩ := List.exists_cons_of_ne_nil hne
  have hdigit : c.isDigit = true := isDigit_padded c (hc ▸ List.mem_cons_self)
  simp only [Char.isDigit, UInt32.le_iff_toNat_le, Bool.and_eq_true, decide_eq_true_eq] at hdigit
  have hsign : '-' < c := by
    rw [Char.lt_def, UInt32.lt_iff_toNat_lt]
    exact Nat.lt_of_lt_of_le (by decide : 45 < 48) hdigit.1
  rw [hc, toChars, yearText, if_pos hd]
  exact List.cons_lt_cons_iff.mpr (.inl hsign)

theorem number_neg_of_year_neg (hd : d.year < 0) : d.number < 0 := by
  have hyear := daysBeforeYear_strictMono.monotone (Int.add_one_le_of_lt hd)
  exact d.number_bounds.2.trans_le hyear

/-- Up to the year 9999 a day stands before one of the years 0 to 9999 as its text does. -/
theorem toText_le_iff_of_le (hd : d.year ≤ 9999) (he : e.FourDigits) :
    d.toText ≤ e.toText ↔ d.number ≤ e.number := by
  by_cases hneg : d.year < 0
  · have hnumber := number_neg_of_year_neg hneg
    have hlow := he.number_bounds.1
    exact iff_of_true (toText_lt_of_year_neg hneg he).le (by omega)
  · exact toText_le_iff ⟨by omega, hd⟩ he

end Date

namespace Window

variable {window : Window} {today day first last : Date}

/-- Whether the window around a day has another day in it: it is that day, a day of the week with the
same Sunday, or a day of the same month. -/
def Contains (today day : Date) : Window → Prop
  | .today => day = today
  | .week => day.number - day.daysFromSunday = today.number - today.daysFromSunday
  | .month => day.year = today.year ∧ day.month = today.month

theorem contains_self (window : Window) (today : Date) : window.Contains today today := by
  cases window with
  | today | week => rfl
  | month => exact ⟨rfl, rfl⟩

/-- The days of a window are those from the first to the last. -/
theorem contains_iff (h : window.days? today = some (first, last)) :
    window.Contains today day ↔ first.number ≤ day.number ∧ day.number ≤ last.number := by
  cases window with
  | today =>
    cases h
    unfold Contains
    rw [← Date.number_injective.eq_iff]
    omega
  | week =>
    obtain ⟨start, hstart, h⟩ := Option.bind_eq_some_iff.mp h
    obtain ⟨stop, hstop, h⟩ := Option.bind_eq_some_iff.mp h
    cases h
    rw [Date.addDays?_eq_some_iff] at hstart hstop
    unfold Contains
    unfold Date.daysFromSunday at hstart ⊢
    omega
  | month =>
    obtain ⟨start, hstart, h⟩ := Option.bind_eq_some_iff.mp h
    cases (Date.addDays?_monthStart today).symm.trans hstart
    obtain ⟨next, hnext, h⟩ := Option.bind_eq_some_iff.mp h
    obtain ⟨stop, hstop, h⟩ := Option.bind_eq_some_iff.mp h
    cases h
    rw [Date.addDays?_eq_some_iff] at hstop
    unfold Contains
    rw [Date.sameMonth_iff hnext]
    omega

/-- The calendar has the window around a day of the years 0 to 9999. -/
theorem inCalendar_of_fourDigits (window : Window) (h : today.FourDigits) :
    window.InCalendar today := by
  have hnumber := h.number_bounds
  have hfirst : Date.first.number < -6 := by decide
  have hlast : 3652425 + 6 < Date.last.number := by decide
  cases window with
  | today => exact trivial
  | week =>
    unfold InCalendar Date.daysFromSunday
    omega
  | month =>
    have hyear := h.high
    exact .inl (by unfold lastYear; omega)

/-- A window with its days in the years 0 to 9999 has a first and a last day there. -/
theorem exists_days (h : ∀ day, window.Contains today day → day.FourDigits) : ∃ first last,
    window.days? today = some (first, last) ∧ first.FourDigits ∧ last.FourDigits := by
  have htoday := window.contains_self today
  obtain ⟨⟨first, last⟩, hdays⟩ := Option.isSome_iff_exists.mp
    (isSome_days?_iff.mpr (inCalendar_of_fourDigits window (h today htoday)))
  have hspan := (contains_iff hdays).mp htoday
  refine ⟨first, last, hdays, h first ((contains_iff hdays).mpr ?_),
    h last ((contains_iff hdays).mpr ?_)⟩
  · omega
  · omega

end Window

/-! ### Moments -/

namespace Date

variable {d e day first last : Date} {xs ys zs us : List Char} {width n m : Nat} {text : String}

/-- A time of the day, to the millisecond. -/
def timeChars (hour minute second millisecond : Nat) : List Char :=
  'T' :: padded 2 hour ++ ':' :: padded 2 minute ++ ':' :: padded 2 second
    ++ '.' :: padded 3 millisecond ++ ['Z']

/-- Whether a text is that of a day, alone or with a time of the day. -/
inductive Written (day : Date) : String → Prop
  | bare : Written day day.toText
  | timed {hour minute second millisecond : Nat} (hhour : hour < 24) (hminute : minute < 60)
      (hsecond : second < 60) (hmillisecond : millisecond < 1000) :
      Written day (String.ofList (day.toChars ++ timeChars hour minute second millisecond))

/-- A moment is written as its day with the time of the day. -/
theorem written_toText (t : Instant) : t.date.Written t.toText := by
  have hlow : 0 ≤ t.milliseconds % Instant.dayLength := Int.emod_nonneg _ (by decide)
  have hhigh : t.milliseconds % Instant.dayLength < Instant.dayLength :=
    Int.emod_lt_of_pos _ (by decide)
  unfold Instant.dayLength at hlow hhigh
  have htext : t.toText = String.ofList (t.date.toChars ++
      timeChars ((t.milliseconds % 86400000).toNat / 3600000)
        ((t.milliseconds % 86400000).toNat / 60000 % 60)
        ((t.milliseconds % 86400000).toNat / 1000 % 60)
        ((t.milliseconds % 86400000).toNat % 1000)) := by
    simp [Instant.toText, Instant.dayLength, timeChars]
  rw [htext]
  exact .timed (by omega) (by omega) (by omega) (by omega)

theorem append_lt_iff : xs ++ ys < xs ++ zs ↔ ys < zs := by
  refine ⟨fun h => ?_, List.append_left_lt⟩
  by_contra hnot
  exact List.append_left_le hnot h

/-- Of two texts that begin with numbers of so many digits that with the lesser number is the
lesser, or the one that goes on so. -/
theorem padded_append_le (hwidth : 0 < width) (hle : n ≤ m) (hm : m < 10 ^ width) (h : xs ≤ ys) :
    padded width n ++ xs ≤ padded width m ++ ys := by
  obtain hlt | rfl := Nat.lt_or_eq_of_le hle
  · refine le_of_lt (append_lt_append ?_ (padded_lt hwidth hlt hm))
    rw [length_padded hwidth hm, length_padded hwidth (hlt.trans hm)]
  · rw [← not_lt, append_lt_iff]
    exact not_lt.mpr h

/-- No time of the day is after the last one. -/
theorem timeChars_le {hour minute second millisecond : Nat} (hhour : hour < 24)
    (hminute : minute < 60) (hsecond : second < 60) (hmillisecond : millisecond < 1000) :
    timeChars hour minute second millisecond ≤ timeChars 23 59 59 999 := by
  simp only [timeChars, List.cons_append, List.append_assoc]
  refine List.cons_le_cons _ (padded_append_le (by decide) (by omega) (by decide) ?_)
  refine List.cons_le_cons _ (padded_append_le (by decide) (by omega) (by decide) ?_)
  refine List.cons_le_cons _ (padded_append_le (by decide) (by omega) (by decide) ?_)
  exact List.cons_le_cons _ (padded_append_le (by decide) (by omega) (by decide) le_rfl)

theorem FourDigits.length_toChars (h : d.FourDigits) : d.toChars.length = 10 := by
  obtain ⟨-, hmonth, -, hday⟩ := d.month_day_bounds
  have hyear := h.low
  have hyears := h.high
  rw [toChars_fourDigits h]
  simp only [List.length_append, List.length_cons]
  rw [length_padded (by decide) (by omega), length_padded (by decide) (by omega),
    length_padded (by decide) (by omega)]

theorem toChars_append_lt (hd : d.FourDigits) (he : e.FourDigits) (h : d.number < e.number) :
    d.toChars ++ xs < e.toChars ++ ys :=
  append_lt_append (hd.length_toChars.trans he.length_toChars.symm) (toChars_lt hd he h)

/-- What begins with different days is in the order of the days. -/
theorem toChars_append_lt_iff (hd : d.FourDigits) (he : e.FourDigits) :
    d.toChars ++ xs < e.toChars ++ ys ↔ d.number < e.number ∨ d = e ∧ xs < ys := by
  obtain hlt | heq | hgt := lt_trichotomy d.number e.number
  · exact iff_of_true (toChars_append_lt hd he hlt) (.inl hlt)
  · cases number_injective heq
    simp [append_lt_iff]
  · refine iff_of_false (List.lt_asymm (toChars_append_lt he hd hgt)) ?_
    rintro (hlt | ⟨rfl, -⟩)
    · omega
    · omega

/-- Texts of a day lie between the first and the last of a span exactly if the day does. -/
theorem Written.between_iff (h : day.Written text) (hday : day.FourDigits) (hfirst : first.FourDigits)
    (hlast : last.FourDigits) : first.toText ≤ text ∧ text ≤ Window.endOfDay last ↔
      first.number ≤ day.number ∧ day.number ≤ last.number := by
  obtain ⟨xs, rfl, hxs⟩ : ∃ xs, text = String.ofList (day.toChars ++ xs) ∧
      xs ≤ timeChars 23 59 59 999 := by
    cases h with
    | bare => exact ⟨[], by rw [List.append_nil]; rfl, not_lt.mp (List.not_lt_nil _)⟩
    | timed hhour hminute hsecond hmillisecond =>
      exact ⟨_, rfl, timeChars_le hhour hminute hsecond hmillisecond⟩
  have hend : Window.endOfDay last = String.ofList (last.toChars ++ timeChars 23 59 59 999) := by
    rw [String.ofList_append]
    exact congrArg (last.toText ++ ·) (by decide +kernel)
  have hlow : first.toText ≤ String.ofList (day.toChars ++ xs) ↔ first.number ≤ day.number := by
    have hlt : day.toChars ++ xs < first.toChars ++ [] ↔ _ := toChars_append_lt_iff hday hfirst
    rw [List.append_nil] at hlt
    rw [← not_lt, String.lt_iff_toList_lt, toText, String.toList_ofList, String.toList_ofList, hlt]
    simp
  have hhigh : String.ofList (day.toChars ++ xs) ≤ Window.endOfDay last ↔
      day.number ≤ last.number := by
    rw [← not_lt, String.lt_iff_toList_lt, hend, String.toList_ofList, String.toList_ofList,
      toChars_append_lt_iff hlast hday]
    simp [hxs]
  rw [hlow, hhigh]

end Date
end Planner

import Planner.Date.Window
import Planner.Proofs.Date.Calendar

/-! How far the calendar has to reach for the window around a day. -/
namespace Planner

open Calendar

namespace Date

variable {d next : Date}

/-- The first day of the month of a day. -/
def monthStart (d : Date) : Date := by
  refine ⟨d.year, d.month, 1, d.exists_day.1, d.exists_day.2.1, le_rfl, ?_⟩
  exact d.exists_day.2.2.1.trans d.exists_day.2.2.2

theorem addDays?_monthStart (d : Date) : d.addDays? (1 - (d.day : Int)) = some d.monthStart := by
  rw [addDays?_eq_some_iff]
  simp only [number, monthStart]
  omega

/-- Only the last month of the calendar has no month after it. -/
theorem isSome_nextMonth?_iff : d.nextMonth?.isSome ↔ d.year < lastYear ∨ d.month < 12 := by
  obtain ⟨index, hindex, hmonth, -⟩ := month_of_hasDay d.exists_day
  have hyear := d.exists_day.2.1
  unfold nextMonth?
  split_ifs with hlast
  · have hday : HasDay (d.year + 1) 1 1 ↔ d.year < lastYear := by
      unfold HasDay
      have hlength : 1 ≤ daysInMonth (d.year + 1) 1 := by simp [daysInMonth, monthLengths]
      have := d.exists_day.1
      omega
    by_cases hbelow : d.year < lastYear
    · simp [make?, hday.mpr hbelow, hbelow]
    · simp [make?, mt hday.mp hbelow, hbelow, hlast]
  · have hnext : index + 1 < (monthLengths d.year).length := by
      rw [length_monthLengths]
      omega
    have hlength : 1 ≤ daysInMonth d.year (d.month + 1) := by
      rw [hmonth, daysInMonth_succ _ hnext]
      have hall : ∀ length ∈ monthLengths d.year, 1 ≤ length := by
        unfold monthLengths
        split_ifs <;> decide
      exact hall _ (List.getElem_mem hnext)
    have hday : HasDay d.year (d.month + 1) 1 := ⟨d.exists_day.1, hyear, le_rfl, hlength⟩
    simp only [make?, dif_pos hday, Option.isSome_some, true_iff]
    omega

/-- There is a day before the first of any month but the first. -/
theorem isSome_beforeMonth (h : d.nextMonth? = some next) : (next.addDays? (-1)).isSome := by
  have hrange := exists_number_eq_iff.mp ⟨next, rfl⟩
  have hne : next.number ≠ first.number := by
    intro heq
    have hnext : next = first := number_injective heq
    have hlow := d.exists_day.1
    unfold nextMonth? make? at h
    split_ifs at h with hlast hday hday
    · cases h
      have hyear := congrArg Date.year hnext
      simp only [first] at hyear
      omega
    · cases h
      have hmonth := congrArg Date.month hnext
      simp only [first] at hmonth
      obtain ⟨index, -, hindex, -⟩ := month_of_hasDay d.exists_day
      omega
  rw [isSome_addDays?_iff]
  omega

end Date

namespace Window

variable {window : Window} {today : Date}

/-- Whether the calendar has the days of the window around a day; past a month it has to have a day,
too. -/
def InCalendar (today : Date) : Window → Prop
  | .today => True
  | .week => Date.first.number ≤ today.number - today.daysFromSunday ∧
    today.number - today.daysFromSunday + 6 ≤ Date.last.number
  | .month => today.year < lastYear ∨ today.month < 12

theorem isSome_days?_iff : (window.days? today).isSome ↔ window.InCalendar today := by
  cases window with
  | today => exact iff_of_true rfl trivial
  | week =>
    unfold days? InCalendar
    cases hsunday : today.addDays? (-today.daysFromSunday) with
    | none =>
      have hstart := Date.isSome_addDays?_iff (d := today) (n := -today.daysFromSunday)
      rw [hsunday] at hstart
      simp only [Option.isSome_none, Bool.false_eq_true, false_iff] at hstart
      refine iff_of_false (by simp) ?_
      omega
    | some start =>
      have hnumber := Date.addDays?_eq_some_iff.mp hsunday
      have hrange := Date.exists_number_eq_iff.mp ⟨start, rfl⟩
      have hstop := Date.isSome_addDays?_iff (d := start) (n := 6)
      have hboth : (do return (start, ← start.addDays? 6) : Option (Date × Date)).isSome =
          (start.addDays? 6).isSome := by
        cases start.addDays? 6 <;> rfl
      change (do return (start, ← start.addDays? 6) : Option (Date × Date)).isSome ↔ _
      rw [hboth, hstop]
      omega
  | month =>
    have hnext := Date.isSome_nextMonth?_iff (d := today.monthStart)
    change _ ↔ today.year < lastYear ∨ today.month < 12 at hnext
    unfold days? InCalendar
    rw [Date.addDays?_monthStart, ← hnext]
    cases hmonth : today.monthStart.nextMonth? with
    | none => simp [hmonth]
    | some next =>
      obtain ⟨stop, hstop⟩ := Option.isSome_iff_exists.mp (Date.isSome_beforeMonth hmonth)
      simp [hmonth, hstop]

theorem isSome_bounds?_iff : (window.bounds? today).isSome ↔ window.InCalendar today := by
  rw [← isSome_days?_iff]
  unfold bounds?
  cases window.days? today <;> rfl

end Window
end Planner

import Planner.Proofs.Date.Calendar
import Planner.Proofs.Legible

/-! The streak of a habit: the days in a row, up to a day, that the log has as completed. -/
namespace Planner

namespace Date

variable {kept : Date → Prop} {day before : Date} {n m : Nat}

/-- Whether just so many days in a row, the last of them `day`, have a property: the day before them
does not have it, if the calendar goes back so far. -/
structure EndsRun (kept : Date → Prop) (day : Date) (n : Nat) : Prop where
  days : ∀ i : Nat, i < n → ∃ d, day.addDays? (-i) = some d ∧ kept d
  stops : ∀ d, day.addDays? (-n) = some d → ¬ kept d

theorem addDays?_zero (day : Date) : day.addDays? 0 = some day :=
  addDays?_eq_some_iff.mpr (Int.add_zero _).symm

theorem addDays?_before (h : day.addDays? (-1) = some before) (i : Nat) :
    day.addDays? (-((i + 1 : Nat) : Int)) = before.addDays? (-i) := by
  have hnumber := addDays?_eq_some_iff.mp h
  unfold addDays?
  congr 1
  omega

namespace EndsRun

theorem none (h : ¬ kept day) : EndsRun kept day 0 where
  days i hi := absurd hi (Nat.not_lt_zero i)
  stops d hd := by
    cases (addDays?_zero day).symm.trans hd
    exact h

theorem one (h : kept day) (hfirst : day.addDays? (-1) = Option.none) : EndsRun kept day 1 where
  days i hi := by
    rw [Nat.lt_one_iff.mp hi]
    exact ⟨day, addDays?_zero day, h⟩
  stops d hd := by
    cases hfirst.symm.trans hd

theorem succ (h : kept day) (hbefore : day.addDays? (-1) = some before)
    (hrun : EndsRun kept before n) : EndsRun kept day (n + 1) where
  days i hi := by
    cases i with
    | zero => exact ⟨day, addDays?_zero day, h⟩
    | succ i =>
      rw [addDays?_before hbefore]
      exact hrun.days i (Nat.lt_of_succ_lt_succ hi)
  stops d hd := by
    rw [addDays?_before hbefore] at hd
    exact hrun.stops d hd

theorem not_lt (hn : EndsRun kept day n) (hm : EndsRun kept day m) : ¬ n < m := by
  intro hlt
  obtain ⟨d, hd, hkept⟩ := hm.days n hlt
  exact hn.stops d hd hkept

/-- There is one such number of days. -/
theorem unique (hn : EndsRun kept day n) (hm : EndsRun kept day m) : n = m :=
  Nat.le_antisymm (Nat.le_of_not_lt (hm.not_lt hn)) (Nat.le_of_not_lt (hn.not_lt hm))

end EndsRun
end Date

namespace Habits

variable {habitId : String} {rows : List Record} {store : Store} {kept : Date → Bool}

/-- Days are counted back to one that is not completed, as far as the calendar goes. -/
theorem streakFrom_endsRun (hkept : ∀ d, completedOn habitId d rows = .ok (kept d)) {days : Nat}
    (day : Date) (hdays : (day.number - Date.first.number).toNat < days) :
    ∃ n, streakFrom habitId rows days day = .ok n ∧ Date.EndsRun (kept · = true) day n := by
  induction days generalizing day with
  | zero => exact absurd hdays (Nat.not_lt_zero _)
  | succ days ih =>
    rw [streakFrom_succ, hkept]
    cases hday : kept day with
    | false => exact ⟨0, rfl, .none (by simp [hday])⟩
    | true =>
      cases hbefore : day.addDays? (-1) with
      | none => exact ⟨1, rfl, .one hday hbefore⟩
      | some before =>
        have hnumber := Date.addDays?_eq_some_iff.mp hbefore
        have hfirst := (Date.exists_number_eq_iff.mp ⟨before, rfl⟩).1
        obtain ⟨n, hn, hrun⟩ := ih before (by omega)
        refine ⟨n + 1, ?_, .succ hday hbefore hrun⟩
        simp only [bind, Except.bind, hn]
        rfl

theorem streak_endsRun (hrows : store.tableRows .habitLogs = .ok rows)
    (hkept : ∀ d, completedOn habitId d rows = .ok (kept d)) (day : Date) :
    ∃ n, streak habitId day store = .ok n ∧ Date.EndsRun (kept · = true) day n := by
  obtain ⟨n, hn, hrun⟩ := streakFrom_endsRun hkept day (Nat.lt_succ_self _)
  refine ⟨n, ?_, hrun⟩
  unfold streak
  rw [hrows]
  exact hn

end Habits
end Planner

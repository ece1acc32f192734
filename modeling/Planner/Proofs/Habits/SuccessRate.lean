import Planner.Proofs.Date.Span
import Planner.Proofs.Double.Ratio
import Planner.Proofs.DueDates
import Planner.Proofs.Habits.Log

/-! The success rate of a habit. It is the percentage that the completed days among the last `days + 1`
make of `days`, and so it is above a hundred where all of them are completed, unless the rounding to
whole points hides it. -/
namespace Planner

open Store Outcome

/-! ### Entries of the last days -/

namespace HabitLog

variable {days : Nat} {today : Date} {logs : List HabitLog} {l : HabitLog}

/-- Whether an entry is for one of so many days, of which a day is the last. -/
def InLast (days : Nat) (today : Date) (l : HabitLog) : Prop :=
  ∃ day : Date, l.date = day.toText ∧ today.number - days < day.number ∧ day.number ≤ today.number

instance (days : Nat) (today : Date) : DecidablePred (InLast days today) := fun l =>
  decidable_of_iff (∃ day ∈ (Date.ofText l.date).toOption, l.date = day.toText ∧
    today.number - days < day.number ∧ day.number ≤ today.number) <| by
      refine exists_congr fun day => and_iff_right_of_imp fun hday => ?_
      rw [hday.1, Date.ofText_toText]
      rfl

/-- How many entries for the last days, so many of them, have the habit as kept. -/
def keptDays (days : Nat) (today : Date) (logs : List HabitLog) : Nat :=
  (logs.filter fun l => l.completed ∧ l.InLast days today).length

theorem keptDays_eq (days : Nat) (today : Date) (logs : List HabitLog) : keptDays days today logs =
    ((logs.filter (·.InLast days today)).filter (·.completed)).length := by
  unfold keptDays
  rw [List.filter_filter]
  simp only [Bool.decide_and, Bool.decide_eq_true]

/-- Of entries with different dates there are no more for some days than there are days. -/
theorem keptDays_le (h : (logs.map date).Nodup) (days : Nat) (today : Date) :
    keptDays days today logs ≤ days := by
  have hnodup : ((logs.filter fun l => l.completed ∧ l.InLast days today).map date).Nodup :=
    h.sublist (List.filter_sublist.map date)
  have hsubset : ((logs.filter fun l => l.completed ∧ l.InLast days today).map date) ⊆
      (List.range days).map fun i : Nat => ((today.addDays? (-i)).map Date.toText).getD "" := by
    intro found hfound
    obtain ⟨l, hl, rfl⟩ := List.mem_map.mp hfound
    have hin := (List.mem_filter.mp hl).2
    obtain ⟨-, day, hday, hlow, hhigh⟩ := of_decide_eq_true hin
    refine List.mem_map.mpr ⟨(today.number - day.number).toNat, List.mem_range.mpr (by omega), ?_⟩
    have hsome : today.addDays? (-((today.number - day.number).toNat : Int)) = some day :=
      Date.addDays?_eq_some_iff.mpr (by omega)
    simp only [hsome, hday]
    rfl
  have hlength := (List.subperm_of_subset hnodup hsubset).length_le
  rwa [List.length_map, List.length_map, List.length_range] at hlength

end HabitLog

/-- Whether the entries of a habit can be read, are for different dates and have them written as days
of the years 0 to 9999. -/
structure Store.HasEntries (habitId : String) (logs : List HabitLog) (store : Store) : Prop where
  rows : ∃ rows, store.tableRows .habitLogs = .ok rows ∧
    (rows.filter ((Predicate.hasText "habit_id" habitId).holds ·)).mapM
      (decodeRow .habitLogs HabitLog.ofJson) = .ok logs
  apart : (logs.map HabitLog.date).Nodup
  dated : ∀ l ∈ logs, ∃ day : Date, day.FourDigits ∧ l.date = day.toText

namespace Habits

open HabitLog (keptDays)

variable {store : Store} {habitId : String} {logs : List HabitLog} {rows : List Record} {days : Nat}
  {today : Date}

/-- The condition for the entries of a habit between two texts. -/
def entriesBetween (habitId start stop : String) : Predicate :=
  .all [.hasText "habit_id" habitId, .range "date" (.text start) (.text stop)]

theorem filter_entriesBetween (start stop : String) (rows : List Record) :
    rows.filter ((entriesBetween habitId start stop).holds ·) =
      (rows.filter ((Predicate.hasText "habit_id" habitId).holds ·)).filter
        ((Predicate.range "date" (.text start) (.text stop)).holds ·) := by
  rw [List.filter_filter]
  refine List.filter_congr fun row _ => ?_
  simp only [entriesBetween, Predicate.holds, Predicate.allHold, Bool.and_true]
  exact Bool.and_comm ..

/-- The entries of a habit between two texts are found, in whatever order. -/
theorem logs_perm (hrows : store.tableRows .habitLogs = .ok rows)
    (hlogs : (rows.filter ((Predicate.hasText "habit_id" habitId).holds ·)).mapM
      (decodeRow .habitLogs HabitLog.ofJson) = .ok logs) (start stop : String) : ∃ entries,
    Habits.logs habitId start stop store = .ok entries ∧
      entries.Perm (logs.filter fun l => start ≤ l.date ∧ l.date ≤ stop) := by
  have hchosen : (rows.filter ((entriesBetween habitId start stop).holds ·)).mapM
      (decodeRow .habitLogs HabitLog.ofJson) =
        .ok (logs.filter fun l => start ≤ l.date ∧ l.date ≤ stop) := by
    rw [filter_entriesBetween]
    refine mapM_filter_eq hlogs fun row _ l hread => ?_
    rw [Bool.eq_iff_iff, decide_eq_true_iff]
    exact Predicate.range_texts (HabitLog.readFrom (mapError_eq_ok.mp hread)).date
  obtain ⟨arranged, entries, harranged, hentries, hlisted⟩ := readEach_arranged
    (decodeRow .habitLogs HabitLog.ofJson) ⟨"date", .descending⟩
    (entriesBetween habitId start stop) hrows fun row hrow hholds =>
      (of_mapM_eq_ok hchosen).1 row (List.mem_filter.mpr ⟨hrow, hholds⟩)
  exact ⟨entries, hlisted, perm_of_mapM_eq_ok hentries hchosen harranged.perm⟩

/-- The entries from so many days ago to a day are those of one day more. -/
theorem between_iff_inLast {l : HabitLog} (htoday : today.FourDigits)
    (hl : ∃ day : Date, day.FourDigits ∧ l.date = day.toText) :
    ((today.addDays? (-(days : Int))).getD Date.first).toText ≤ l.date ∧ l.date ≤ today.toText ↔
      l.InLast (days + 1) today := by
  obtain ⟨day, hday, hdate⟩ := hl
  have hin : l.InLast (days + 1) today ↔
      today.number - days ≤ day.number ∧ day.number ≤ today.number := by
    unfold HabitLog.InLast
    rw [hdate]
    constructor
    · rintro ⟨other, hother, hlow, hhigh⟩
      rw [Date.toText_injective hother]
      omega
    · intro hspan
      exact ⟨day, rfl, by omega, hspan.2⟩
  have hnumber := hday.number_bounds.1
  rw [hin, hdate, Date.toText_le_iff hday htoday]
  refine and_congr_left fun hhigh => ?_
  cases hstart : today.addDays? (-(days : Int)) with
  | some start =>
    rw [Option.getD_some]
    have hsum := Date.addDays?_eq_some_iff.mp hstart
    have hyear : start.year ≤ 9999 := by
      by_contra hlate
      have hafter : today.number < start.number :=
        Date.number_lt_iff.mpr (.inl (htoday.high.trans_lt (Int.not_le.mp hlate)))
      omega
    rw [Date.toText_le_iff_of_le hyear hday, hsum]
    omega
  | none =>
    rw [Option.getD_none]
    have hfirst := Date.isSome_addDays?_iff (d := today) (n := -(days : Int))
    have hlast := Date.exists_number_eq_iff.mp ⟨today, rfl⟩
    have hneg : Date.first.number < 0 := by decide
    rw [hstart] at hfirst
    simp only [Option.isSome_none, Bool.false_eq_true, false_iff] at hfirst
    refine iff_of_true (Date.toText_lt_of_year_neg (by decide) hday).le (by omega)

/-- The rate is the percentage that the completed days among the last `days + 1` make of `days`. -/
theorem successRate_eq (h : store.HasEntries habitId logs) (htoday : today.FourDigits)
    (hdays : 0 < days) : successRate habitId days today store =
      .ok (percentage (keptDays (days + 1) today logs) days) := by
  obtain ⟨rows, hrows, hlogs⟩ := h.rows
  obtain ⟨entries, hentries, hperm⟩ := logs_perm hrows hlogs
    ((today.addDays? (-(days : Int))).getD Date.first).toText today.toText
  have hwindow : (logs.filter fun l =>
      ((today.addDays? (-(days : Int))).getD Date.first).toText ≤ l.date ∧ l.date ≤ today.toText) =
        logs.filter (·.InLast (days + 1) today) :=
    List.filter_congr fun l hl =>
      decide_eq_decide.mpr (between_iff_inLast htoday (h.dated l hl))
  have hcount : (entries.filter (·.completed)).length = keptDays (days + 1) today logs := by
    rw [(hperm.filter _).length_eq, hwindow, HabitLog.keptDays_eq]
  unfold successRate
  rw [if_neg hdays.ne', ← hcount]
  exact bind_eq_ok.mpr ⟨entries, hentries, rfl⟩

/-- The rate of so many days is the percentage that the completed days among one day more make of
them. It exceeds a hundred exactly where all these days are completed and there are fewer than two
hundred, and entries for other days do not change it. -/
theorem successRate_window (h : store.HasEntries habitId logs) (htoday : today.FourDigits)
    (hdays : 0 < days) (hlimit : days < 2 ^ 32) : ∃ rate,
    successRate habitId days today store = .ok rate ∧
    rate = percentage (keptDays (days + 1) today logs) days ∧
    keptDays (days + 1) today logs ≤ days + 1 ∧
    (rate ≤ 100 ↔ keptDays (days + 1) today logs ≤ days ∨ 200 ≤ days) ∧
    ∀ other others, other.HasEntries habitId others →
      (others.filter (·.InLast (days + 1) today)).Perm (logs.filter (·.InLast (days + 1) today)) →
        successRate habitId days today other = .ok rate := by
  have hcount := HabitLog.keptDays_le h.apart (days + 1) today
  refine ⟨_, successRate_eq h htoday hdays, rfl, hcount, ?_, fun other others hother hsame => ?_⟩
  · rcases Nat.lt_or_eq_of_le hcount with hfew | hall
    · have hle : keptDays (days + 1) today logs ≤ days := Nat.le_of_lt_succ hfew
      exact iff_of_true (percentage_le_hundred hle hdays (by omega)) (.inl hle)
    · rw [hall, percentage_succ_le_hundred_iff hdays (by omega)]
      omega
  · rw [successRate_eq hother htoday hdays, HabitLog.keptDays_eq, HabitLog.keptDays_eq _ _ logs,
      (hsame.filter _).length_eq]

/-- The entries of a habit among those that are written to the log. -/
theorem hasEntries_written {entries : List HabitLog}
    (hapart : ((entries.filter (·.habitId = habitId)).map HabitLog.date).Nodup)
    (hdated : ∀ l ∈ entries, ∃ day : Date, day.FourDigits ∧ l.date = day.toText) (store : Store) :
    (store.written .habitLogs (entries.map HabitLog.row)).HasEntries habitId
      (entries.filter (·.habitId = habitId)) where
  rows := by
    refine ⟨_, hasLog_written entries store, mapM_filter_eq (HabitLog.mapM_row entries) ?_⟩
    intro row _ l hread
    rw [Bool.eq_iff_iff, Predicate.holds_hasText, decide_eq_true_iff,
      (HabitLog.readFrom (mapError_eq_ok.mp hread)).habitId]
    simp
  apart := hapart
  dated l hl := hdated l (List.mem_of_mem_filter hl)

/-- Entries of a habit for two days in a row. -/
def bothDays : List HabitLog :=
  [⟨"a", "read", "2024-05-14", true⟩, ⟨"b", "read", "2024-05-15", true⟩]

theorem dated_bothDays : ∀ l ∈ bothDays, ∃ day : Date, day.FourDigits ∧ l.date = day.toText := by
  have hyear : (0 : Int) ≤ 2024 ∧ (2024 : Int) ≤ 9999 := by decide
  simp only [bothDays, List.forall_mem_cons]
  refine ⟨⟨⟨2024, 5, 14, by decide⟩, ⟨hyear.1, hyear.2⟩, by decide +kernel⟩,
    ⟨⟨2024, 5, 15, by decide⟩, ⟨hyear.1, hyear.2⟩, by decide +kernel⟩, by simp⟩

/-- A planner that was just made, with some of these entries. -/
def readOn (entries : List HabitLog) : Store :=
  (CommandLine.fresh ⟨0⟩).store.written .habitLogs (entries.map HabitLog.row)

theorem hasEntries_readOn {entries : List HabitLog} (h : entries.Sublist bothDays) :
    (readOn entries).HasEntries "read" entries := by
  have hapart : (entries.map HabitLog.date).Nodup :=
    List.Nodup.sublist (h.map HabitLog.date) (by decide)
  have hall : entries.filter (·.habitId = "read") = entries := by
    refine List.filter_eq_self.mpr fun l hl => ?_
    have hread : ∀ l ∈ bothDays, decide (l.habitId = "read") = true := by decide
    exact hread l (h.subset hl)
  have hwritten : (readOn entries).HasEntries "read" (entries.filter (·.habitId = "read")) :=
    hasEntries_written (hall.symm ▸ hapart) (fun l hl => dated_bothDays l (h.subset hl)) _
  rwa [hall] at hwritten

theorem successRate_window_bothDays : ∃ rate,
    successRate "read" 3 CommandLine.midMay (readOn bothDays) = .ok rate ∧ rate = 67 ∧
      rate ≤ 100 := by
  have hyears : CommandLine.midMay.FourDigits := ⟨by decide, by decide⟩
  have hdays : 0 < 3 ∧ 3 < 2 ^ 32 := by decide
  obtain ⟨rate, hrate, heq, -, hhundred, -⟩ := successRate_window
    (hasEntries_readOn (List.Sublist.refl bothDays)) hyears hdays.1 hdays.2
  have hkept : keptDays (3 + 1) CommandLine.midMay bothDays = 2 := by decide +kernel
  have hpercent : percentage 2 3 = 67 := by decide +kernel
  rw [hkept] at heq hhundred
  exact ⟨rate, hrate, heq.trans hpercent, hhundred.mpr (.inl (by decide))⟩

/-- The rate of one day is two hundred there, and the entry for the day before it makes a difference. -/
theorem not_percentage_bothDays :
    (readOn bothDays).HasEntries "read" bothDays ∧
    (readOn bothDays.tail).HasEntries "read" bothDays.tail ∧
    bothDays.filter (·.InLast 1 CommandLine.midMay) =
      bothDays.tail.filter (·.InLast 1 CommandLine.midMay) ∧
    successRate "read" 1 CommandLine.midMay (readOn bothDays) = .ok 200 ∧
    successRate "read" 1 CommandLine.midMay (readOn bothDays.tail) = .ok 100 := by
  have hyears : CommandLine.midMay.FourDigits := ⟨by decide, by decide⟩
  have hboth := hasEntries_readOn (List.Sublist.refl bothDays)
  have hlast := hasEntries_readOn (List.tail_sublist bothDays)
  have hkept : keptDays (1 + 1) CommandLine.midMay bothDays = 2 ∧
      keptDays (1 + 1) CommandLine.midMay bothDays.tail = 1 := by decide +kernel
  have hpercent : percentage 2 1 = 200 ∧ percentage 1 1 = 100 := by decide +kernel
  refine ⟨hboth, hlast, by decide +kernel, ?_, ?_⟩
  · rw [successRate_eq hboth hyears Nat.one_pos, hkept.1, hpercent.1]
  · rw [successRate_eq hlast hyears Nat.one_pos, hkept.2, hpercent.2]

end Habits
end Planner

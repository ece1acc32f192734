import Planner.Proofs.Habits.Days

/-! The streak over any log that can be read, whatever wrote it: it ends at the first day that is not
completed, and no entry counts for two of its days. -/
namespace Planner

open Store Outcome

/-- Days in a row that each have an entry are not more than the entries, since no two of them have the
same text. -/
theorem Date.EndsRun.le_length {kept : Date → Prop} {day : Date} {n : Nat} {logs : List HabitLog}
    (h : day.EndsRun kept n) (hkept : ∀ d, kept d → ∃ l ∈ logs, l.date = d.toText) :
    n ≤ logs.length := by
  have : Nonempty Date := ⟨day⟩
  choose! d hday using h.days
  have hnodup : ((List.range n).map fun i => (d i).toText).Nodup := by
    refine List.Nodup.map_on (fun i hi j hj hsame => ?_) List.nodup_range
    have hnumber := addDays?_eq_some_iff.mp (hday i (List.mem_range.mp hi)).1
    have hnumber' := addDays?_eq_some_iff.mp (hday j (List.mem_range.mp hj)).1
    rw [toText_injective hsame] at hnumber
    omega
  have hsubset : ((List.range n).map fun i => (d i).toText) ⊆ logs.map HabitLog.date := by
    intro text htext
    obtain ⟨i, hi, rfl⟩ := List.mem_map.mp htext
    obtain ⟨l, hl, hdate⟩ := hkept _ (hday i (List.mem_range.mp hi)).2
    exact List.mem_map.mpr ⟨l, hl, hdate⟩
  have hlength := (List.subperm_of_subset hnodup hsubset).length_le
  rwa [List.length_map, List.length_map, List.length_range] at hlength

namespace Habits

variable {store : Store} {rows : List Record} {logs : List HabitLog}

/-- Where all rows of the log can be read the streak of a habit up to a day is found. It is the one
number of days in a row, the last of them that day, whose first entry is a completed one, where the
day before them has no such entry or is not in the calendar; and it is not more than the entries of
the habit. -/
theorem streak_of_rows (hrows : store.tableRows .habitLogs = .ok rows)
    (hlogs : rows.mapM (decodeRow .habitLogs HabitLog.ofJson) = .ok logs) (habitId : String)
    (day : Date) : ∃ n, streak habitId day store = .ok n ∧
    (∀ m, day.EndsRun (fun d => ∃ l, logs.find? (·.mark.At habitId d.toText) = some l ∧
      l.completed = true) m ↔ m = n) ∧
    n ≤ (logs.filter (·.habitId = habitId)).length := by
  obtain ⟨n, hn, hrun⟩ :=
    streak_endsRun hrows (fun d => completedOn_of_rows hlogs habitId d) day
  simp only [Option.any_eq_true] at hrun
  refine ⟨n, hn, fun m => ⟨fun hm => hm.unique hrun, fun hm => hm ▸ hrun⟩, hrun.le_length ?_⟩
  rintro d ⟨l, hl, -⟩
  have hat := List.find?_some hl
  obtain ⟨hhabit, hdate⟩ := of_decide_eq_true hat
  exact ⟨l, List.mem_filter.mpr ⟨List.mem_of_find?_eq_some hl, decide_eq_true hhabit⟩, hdate⟩

/-- A log of two days in a row, of which the first has two entries, and of another habit. -/
def twoDays : List HabitLog := [⟨"a", "run", "2024-05-14", true⟩, ⟨"b", "run", "2024-05-15", true⟩,
  ⟨"c", "run", "2024-05-14", false⟩, ⟨"d", "read", "2024-05-13", true⟩]

theorem streak_of_rows_twoDays : streak "run" CommandLine.midMay
    ((CommandLine.fresh ⟨0⟩).store.written .habitLogs (twoDays.map HabitLog.row)) = .ok 2 := by
  obtain ⟨n, hn, hunique, -⟩ := streak_of_rows (hasLog_written twoDays _)
    (HabitLog.mapM_row twoDays) "run" CommandLine.midMay
  have hbefore : CommandLine.midMay.addDays? (-1) = some ⟨2024, 5, 14, by decide⟩ ∧
      (⟨2024, 5, 14, by decide⟩ : Date).addDays? (-1) = some ⟨2024, 5, 13, by decide⟩ := by
    decide +kernel
  rw [hn, ← (hunique 2).mp]
  refine .succ ?_ hbefore.1 (.succ ?_ hbefore.2 (.none ?_))
  · exact ⟨⟨"b", "run", "2024-05-15", true⟩, by decide +kernel, rfl⟩
  · exact ⟨⟨"a", "run", "2024-05-14", true⟩, by decide +kernel, rfl⟩
  · have hnone : twoDays.find? (·.mark.At "run" (⟨2024, 5, 13, by decide⟩ : Date).toText) = none := by
      decide +kernel
    rw [hnone]
    exact fun ⟨_, hl, _⟩ => nomatch hl

end Habits
end Planner

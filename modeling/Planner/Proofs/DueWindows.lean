import Planner.Proofs.Date.Span
import Planner.Proofs.DueDates
import Planner.Proofs.Occurrences

/-! The tasks of a window are those whose day is in it, though texts are compared and not days: where
all due dates are written as days or as moments, the window is one of the calendar. -/
namespace Planner

open Outcome Store

namespace Tasks

variable {store : Store} {rows : List Record} {row : Record} {task : Task} {stored : List Task}
  {window : Window} {today : Date} {low high due : String}

theorem get?_dueDate_iff (h : hydrate store row = .ok task) :
    row.get? "due_date" = some (.text due) ↔ task.dueDate = some due := by
  obtain ⟨read, hfrom, htask⟩ := readFrom_hydrate h
  have hcolumn := hfrom.dueDate
  rw [htask]
  cases hget : row.get? "due_date" <;> cases hdue : read.dueDate <;>
    rw [hget, hdue] at hcolumn <;> cases hcolumn <;> simp

/-- The condition for the tasks whose due date is between two texts. -/
def dueBetween (low high : String) : Predicate := .range "due_date" (.text low) (.text high)

/-- A task without a due date is in no range. -/
theorem dueBetween_iff (h : hydrate store row = .ok task) :
    (dueBetween low high).holds row = true ↔ ∃ due ∈ task.dueDate, low ≤ due ∧ due ≤ high := by
  unfold dueBetween
  cases hdue : task.dueDate with
  | some due =>
    rw [Predicate.range_texts ((get?_dueDate_iff h).mpr hdue)]
    simp
  | none =>
    obtain ⟨read, hfrom, htask⟩ := readFrom_hydrate h
    have hcolumn := hfrom.dueDate
    rw [htask] at hdue
    rw [hdue] at hcolumn
    cases hget : row.get? "due_date" <;> rw [hget] at hcolumn <;> cases hcolumn <;>
      simp [Predicate.holds, hget, Predicate.atLeast, Json.compare?]

/-- The order in which the tasks of a window are listed. -/
def byDueDate : Ordered := ⟨"due_date", .ascending⟩

theorem compareRows_byDueDate {other : Record} {due' : String}
    (h : row.get? "due_date" = some (.text due)) (hother : other.get? "due_date" = some (.text due')) :
    byDueDate.compareRows row other = compare due due' := by
  simp [byDueDate, Ordered.compareRows, h, hother, Json.sortCompare, Json.kindRank]

/-- The rows that tie with one that has a due date are those with the same. -/
theorem compareRows_eq_iff {other : Record} (h : row.get? "due_date" = some (.text due)) :
    byDueDate.compareRows row other = .eq ↔ other.get? "due_date" = some (.text due) := by
  constructor
  · intro htie
    simp only [byDueDate, Ordered.compareRows, h, Json.sortCompare] at htie
    generalize other.get? "due_date" = field at htie
    rcases field with _ | (_ | _ | _ | due' | _ | _) <;> simp [Json.kindRank] at htie
    rw [htie]
  · intro hother
    rw [compareRows_byDueDate h hother]
    exact Std.ReflCmp.compare_self

/-- Where all tasks can be read the list of those between two texts is. It has the tasks whose due
date lies there, by their due dates, and with each due date as they are stored. -/
theorem dueIn_sorted (hrows : store.tableRows .tasks = .ok rows)
    (hstored : rows.mapM (hydrate store) = .ok stored)
    (hbounds : window.bounds? today = some (low, high)) : ∃ found,
    Tasks.dueIn window today store = .ok found ∧
    (∀ task, task ∈ found ↔ task ∈ stored ∧ ∃ due ∈ task.dueDate, low ≤ due ∧ due ≤ high) ∧
    (found.Pairwise fun a b => ∃ due ∈ a.dueDate, ∃ due' ∈ b.dueDate, due ≤ due') ∧
    ∀ task ∈ found, found.filter (·.dueDate = task.dueDate) =
      stored.filter (·.dueDate = task.dueDate) := by
  obtain ⟨hall, hmem⟩ := of_mapM_eq_ok hstored
  obtain ⟨arranged, found, harranged, hfound, hlisted⟩ := readEach_arranged (hydrate store)
    byDueDate (dueBetween low high) hrows fun row hrow _ => hall row hrow
  have hchosen : ∀ row, row ∈ arranged ↔ row ∈ rows ∧ (dueBetween low high).holds row = true :=
    fun row => harranged.perm.mem_iff.trans List.mem_filter
  obtain ⟨-, hfoundMem⟩ := of_mapM_eq_ok hfound
  have hdueIn : Tasks.dueIn window today store = .ok found := by
    unfold Tasks.dueIn
    rw [hbounds]
    exact hlisted
  refine ⟨found, hdueIn, fun task => ?_, pairwise_of_mapM_eq_ok hfound ?_, fun task htask => ?_⟩
  · rw [hfoundMem, hmem]
    constructor
    · rintro ⟨row, hrow, hread⟩
      obtain ⟨hrow, hrange⟩ := (hchosen row).mp hrow
      exact ⟨⟨row, hrow, hread⟩, (dueBetween_iff hread).mp hrange⟩
    · rintro ⟨⟨row, hrow, hread⟩, hrange⟩
      exact ⟨row, (hchosen row).mpr ⟨hrow, (dueBetween_iff hread).mpr hrange⟩, hread⟩
  · refine harranged.inOrder.imp_of_mem fun {a b} ha hb horder c d hc hd => ?_
    obtain ⟨due, hdue, -⟩ := (dueBetween_iff hc).mp ((hchosen a).mp ha).2
    obtain ⟨due', hdue', -⟩ := (dueBetween_iff hd).mp ((hchosen b).mp hb).2
    rw [compareRows_byDueDate ((get?_dueDate_iff hc).mpr hdue) ((get?_dueDate_iff hd).mpr hdue'),
      ne_eq, compare_gt_iff_gt, not_lt] at horder
    exact ⟨due, hdue, due', hdue', horder⟩
  · obtain ⟨row, hrow, hread⟩ := (hfoundMem task).mp htask
    obtain ⟨due, hdue, hlow, hhigh⟩ := (dueBetween_iff hread).mp ((hchosen row).mp hrow).2
    have hget := (get?_dueDate_iff hread).mpr hdue
    have hties : ∀ (other : Record) task', hydrate store other = .ok task' →
        decide (byDueDate.compareRows row other = .eq) = decide (task'.dueDate = task.dueDate) := by
      intro other task' hother
      rw [Bool.eq_iff_iff, decide_eq_true_iff, decide_eq_true_iff, compareRows_eq_iff hget,
        get?_dueDate_iff hother, Option.mem_def.mp hdue]
    have hsame : arranged.filter (byDueDate.compareRows row · = .eq) =
        rows.filter (byDueDate.compareRows row · = .eq) := by
      rw [harranged.stable row, List.filter_filter]
      refine List.filter_congr fun other _ => ?_
      by_cases htie : byDueDate.compareRows row other = .eq
      · have hin := (Predicate.range_texts ((compareRows_eq_iff hget).mp htie)).mpr ⟨hlow, hhigh⟩
        simp [htie, dueBetween, hin]
      · simp [htie]
    have hkept := mapM_filter_eq hfound fun other _ => hties other
    rw [hsame, mapM_filter_eq hstored fun other _ => hties other] at hkept
    exact (Except.ok.inj hkept).symm

/-- Where all tasks can be read, every due date is written as a day of the years 0 to 9999, alone or
with a time, and the days of a window are of those years, the tasks of the window are those whose day
is in it, by the texts of their due dates, and with each due date as they are stored. -/
theorem dueIn_contains (hrows : store.tableRows .tasks = .ok rows)
    (hstored : rows.mapM (hydrate store) = .ok stored)
    (hwritten : ∀ task ∈ stored, ∀ due ∈ task.dueDate,
      ∃ day : Date, day.FourDigits ∧ day.Written due)
    (hwindow : ∀ day, window.Contains today day → day.FourDigits) : ∃ found,
    Tasks.dueIn window today store = .ok found ∧
    (∀ task, task ∈ found ↔ task ∈ stored ∧ ∃ due ∈ task.dueDate, ∃ day : Date,
      day.Written due ∧ window.Contains today day) ∧
    (found.Pairwise fun a b => ∃ due ∈ a.dueDate, ∃ due' ∈ b.dueDate, due ≤ due') ∧
    ∀ task ∈ found, found.filter (·.dueDate = task.dueDate) =
      stored.filter (·.dueDate = task.dueDate) := by
  obtain ⟨first, last, hdays, hfirst, hlast⟩ := Window.exists_days hwindow
  have hbounds : window.bounds? today = some (first.toText, Window.endOfDay last) := by
    unfold Window.bounds?
    rw [hdays]
    rfl
  have hbetween : ∀ {day : Date} {due : String}, day.FourDigits → day.Written due →
      (first.toText ≤ due ∧ due ≤ Window.endOfDay last ↔ window.Contains today day) :=
    fun hday hdue => (hdue.between_iff hday hfirst hlast).trans (Window.contains_iff hdays).symm
  obtain ⟨found, hfound, hmem, hsorted, hties⟩ := dueIn_sorted hrows hstored hbounds
  refine ⟨found, hfound, fun task => (hmem task).trans (and_congr_right fun htask => ?_), hsorted,
    hties⟩
  constructor
  · rintro ⟨due, hdue, hrange⟩
    obtain ⟨day, hday, hwrites⟩ := hwritten task htask due hdue
    exact ⟨due, hdue, day, hwrites, (hbetween hday hwrites).mp hrange⟩
  · rintro ⟨due, hdue, day, hwrites, hcontains⟩
    exact ⟨due, hdue, (hbetween (hwindow day hcontains) hwrites).mpr hcontains⟩

/-- Where there are no subtasks the rows of tasks are read as the tasks. -/
theorem mapM_hydrate_columns {content : Table → List Record} (h : store.Holds content)
    (hnone : content .subtasks = []) {tasks : List Task} (htasks : ∀ task ∈ tasks, task.subtasks = []) :
    (tasks.map fun task => Record.ofFields task.columns).mapM (hydrate store) = .ok tasks := by
  have hread : ∀ task ∈ tasks, hydrate store (Record.ofFields task.columns) = .ok task := by
    intro task htask
    have hsubtasks : subtasks task.id store = .ok [] := by
      refine bind_eq_ok.mpr ⟨[], (h.query _).trans ?_, rfl⟩
      change Except.ok (Select.evaluate _ (content .subtasks)) = _
      rw [hnone]
      rfl
    refine bind_eq_ok.mpr ⟨task, mapError_eq_ok.mpr (Task.ofJson_columns (htasks task htask)), ?_⟩
    refine bind_eq_ok.mpr ⟨[], hsubtasks, ?_⟩
    rw [← htasks task htask]
    rfl
  induction tasks with
  | nil => rfl
  | cons first rest ih =>
    obtain ⟨hfirst, hrest⟩ := List.forall_mem_cons.mp hread
    rw [List.map_cons, List.mapM_cons, hfirst,
      ih (fun task htask => htasks task (List.mem_cons_of_mem _ htask)) hrest]
    rfl

/-- A task with a due date, or without one. -/
def dated (id : String) (dueDate : Option String) : Task where
  id := id
  title := "Pack"
  description := none
  priority := .medium
  status := .incomplete
  dueDate := dueDate
  createdAt := ""
  updatedAt := ""
  subtasks := []

/-- Tasks for the last moment and for the first day of a month, and one for no day. -/
def inMay : List Task :=
  [dated "a" (some "2024-05-31T23:59:59.999Z"), dated "b" (some "2024-05-01"), dated "c" none]

/-- A planner that was just made, with these tasks. -/
def mayStore : Store :=
  (CommandLine.fresh ⟨0⟩).store.written .tasks (inMay.map fun task => .ofFields task.columns)

/-- A day of that month. -/
def may (day : Nat) (h : Calendar.HasDay 2024 5 day) : Date := ⟨2024, 5, day, h⟩

theorem written_inMay : ∀ task ∈ inMay, ∀ due ∈ task.dueDate,
    ∃ day : Date, (day.FourDigits ∧ Window.month.Contains CommandLine.midMay day) ∧
      day.Written due := by
  have hlow : (0 : Int) ≤ 2024 := by decide
  have hhigh : (2024 : Int) ≤ 9999 := by decide
  have hmay : ∀ day h, (may day h).FourDigits ∧
      Window.month.Contains CommandLine.midMay (may day h) :=
    fun _ _ => ⟨⟨hlow, hhigh⟩, rfl, rfl⟩
  simp only [inMay, List.forall_mem_cons]
  refine ⟨fun due hdue => ?_, fun due hdue => ?_, fun due hdue => ?_, by simp⟩
  · cases hdue
    have htext : String.ofList ((may 31 (by decide)).toChars ++ Date.timeChars 23 59 59 999) =
        "2024-05-31T23:59:59.999Z" := by decide +kernel
    refine ⟨may 31 (by decide), hmay 31 _, ?_⟩
    rw [← htext]
    exact .timed (by decide) (by decide) (by decide) (by decide)
  · cases hdue
    have htext : (may 1 (by decide)).toText = "2024-05-01" := by decide +kernel
    refine ⟨may 1 (by decide), hmay 1 _, ?_⟩
    rw [← htext]
    exact .bare
  · cases hdue

theorem dueIn_contains_inMay : ∃ found,
    Tasks.dueIn .month CommandLine.midMay mayStore = .ok found ∧
      ∀ task, task ∈ found ↔ task ∈ inMay ∧ task.dueDate ≠ none := by
  have hplain : ∀ row ∈ inMay.map fun task => Record.ofFields task.columns, row.Plain :=
    List.forall_mem_map.mpr fun task _ => .ofFields task.columns_id.plain
  have hholds : mayStore.Holds _ :=
    (holdsPlain_fresh ⟨0⟩).holds.written fun row hrow => (hplain row hrow).storable
  rw [List.map_congr_left (g := id) fun row hrow => (hplain row hrow).reread_eq, List.map_id]
    at hholds
  have hwritten : ∀ task ∈ inMay, ∀ due ∈ task.dueDate,
      ∃ day : Date, day.FourDigits ∧ day.Written due := by
    intro task htask due hdue
    obtain ⟨day, ⟨hday, -⟩, hwrites⟩ := written_inMay task htask due hdue
    exact ⟨day, hday, hwrites⟩
  have hwindow : ∀ day, Window.month.Contains CommandLine.midMay day → day.FourDigits := by
    rintro day ⟨hyear, -⟩
    exact ⟨by rw [hyear]; decide, by rw [hyear]; decide⟩
  obtain ⟨found, hfound, hmem, -, -⟩ := dueIn_contains (hholds.tableRows .tasks)
    (mapM_hydrate_columns hholds rfl (by simp [inMay, dated])) hwritten hwindow
  refine ⟨found, hfound, fun task => (hmem task).trans (and_congr_right fun htask => ?_)⟩
  constructor
  · rintro ⟨due, hdue, -⟩ hnone
    cases hnone.symm.trans hdue
  · intro hsome
    obtain ⟨due, hdue⟩ := Option.ne_none_iff_exists'.mp hsome
    obtain ⟨day, ⟨-, hcontains⟩, hwrites⟩ := written_inMay task htask due hdue
    exact ⟨due, hdue, day, hwrites, hcontains⟩

end Tasks
end Planner

import Planner.Proofs.Date.Text
import Planner.Proofs.Legible
import Planner.Proofs.Store.Placing
import Planner.Proofs.Store.Writing

/-! Due dates that a command accepts, and the windows in which they are found: of all ways to write
a day only that with four, two and two digits is found in every window around it. -/
namespace Planner

open Store Outcome Workspace

/-! ### Windows -/

namespace Window

variable {window : Window} {today day : Date} {low high due : String}

/-- Whether a text lies between those that bound the window around a day. -/
def Catches (today : Date) (due : String) (window : Window) : Prop :=
  ∃ low high, window.bounds? today = some (low, high) ∧ low ≤ due ∧ due ≤ high

/-- Whether the window around a day has another day in it, and lies in the years 0 to 9999. -/
def Has (today day : Date) (window : Window) : Prop :=
  ∃ first last, window.days? today = some (first, last) ∧ first.FourDigits ∧ last.FourDigits ∧
    first.number ≤ day.number ∧ day.number ≤ last.number

theorem toText_le_endOfDay (d : Date) : d.toText ≤ endOfDay d := by
  rw [← not_lt, String.lt_iff_toList_lt, endOfDay, String.toList_append]
  exact List.not_lt.mpr List.le_append_left

theorem Has.catches (h : window.Has today day) (hday : day.FourDigits) :
    window.Catches today day.toText := by
  obtain ⟨first, last, hdays, hfirst, hlast, hlow, hhigh⟩ := h
  refine ⟨first.toText, endOfDay last, by rw [bounds?, hdays]; rfl, ?_, ?_⟩
  · exact (Date.toText_le_iff hfirst hday).mpr hlow
  · exact ((Date.toText_le_iff hday hlast).mpr hhigh).trans (toText_le_endOfDay last)

/-- The text of a day that is found in every window with the day in it is the one with four, two and
two digits. -/
theorem catches_iff (hread : Date.ofText due = .ok day) (hday : day.FourDigits) :
    (∀ (window : Window) today, window.Has today day → window.Catches today due) ↔
      due = day.toText := by
  constructor
  · intro hall
    obtain ⟨low, high, hbounds, hlow, hhigh⟩ :=
      hall .today day ⟨day, day, rfl, hday, hday, le_rfl, le_rfl⟩
    cases hbounds
    exact Date.eq_toText_of_between hread hlow hhigh
  · rintro rfl window today hhas
    exact hhas.catches hday

end Window

/-! ### Listed tasks -/

theorem Predicate.range_texts {row : Record} {column text low high : String}
    (h : row.get? column = some (.text text)) :
    (Predicate.range column (.text low) (.text high)).holds row = true ↔
      low ≤ text ∧ text ≤ high := by
  have hlow : Predicate.atLeast (.text low) (some (.text text)) = true ↔ low ≤ text := by
    rw [← not_lt, ← compare_lt_iff_lt]
    simp only [Predicate.atLeast, Json.compare?]
    cases compare text low <;> simp
  have hhigh : Predicate.atMost (.text high) (some (.text text)) = true ↔ text ≤ high := by
    rw [← not_lt, ← compare_gt_iff_gt]
    simp only [Predicate.atMost, Json.compare?]
    cases compare text high <;> simp
  simp only [Predicate.holds, h, Bool.and_eq_true, hlow, hhigh]

section Listing

variable {store : Store} {window : Window} {today : Date} {rows : List Record} {found : List Task}
  {row : Record} {task : Task} {id : String}

/-- The tasks that are found in a window come from the rows whose due date it catches, each of which
can be read. -/
theorem Tasks.mem_dueIn (hrows : store.tableRows .tasks = .ok rows)
    (h : Tasks.dueIn window today store = .ok found) : ∃ low high,
      window.bounds? today = some (low, high) ∧
      (∀ row ∈ rows, (Predicate.range "due_date" (.text low) (.text high)).holds row = true →
        Succeeds (hydrate store row)) ∧
      ∀ task, task ∈ found ↔ ∃ row ∈ rows,
        (Predicate.range "due_date" (.text low) (.text high)).holds row = true ∧
          hydrate store row = .ok task := by
  unfold Tasks.dueIn at h
  cases hbounds : window.bounds? today with
  | none =>
    rw [hbounds] at h
    cases h
  | some bounds =>
    obtain ⟨low, high⟩ := bounds
    rw [hbounds] at h
    obtain ⟨hall, hmem⟩ := Store.mem_readEach (hydrate store)
      ((everyTask.filtered (.range "due_date" (.text low) (.text high))).ascending "due_date")
      hrows rfl h
    have hcaught : ∀ row, Select.Chooses ((everyTask.filtered (.range "due_date" (.text low)
        (.text high))).ascending "due_date") row ↔
          (Predicate.range "due_date" (.text low) (.text high)).holds row = true := by
      intro row
      simp [Select.Chooses, Select.filtered, Select.ascending]
    simp only [hcaught] at hall hmem
    exact ⟨low, high, rfl, hall, hmem⟩

/-- A task that was read has the id of its row. -/
theorem Tasks.id_of_hydrate (h : hydrate store row = .ok task) :
    row.get? "id" = some (.text task.id) := by
  obtain ⟨read, hread, h⟩ := bind_eq_ok.mp h
  obtain ⟨subtasks, -, h⟩ := bind_eq_ok.mp h
  cases h
  obtain ⟨fields, hfields, hread⟩ := bind_eq_ok.mp (mapError_eq_ok.mp hread)
  obtain ⟨⟨⟩, -, hsame⟩ := bind_eq_ok.mp hfields
  cases hsame
  obtain ⟨id, hid, hread⟩ := bind_eq_ok.mp hread
  have hreadId : read.id = id := by
    iterate 8 obtain ⟨_, -, hread⟩ := bind_eq_ok.mp hread
    cases hread
    rfl
  unfold Record.required at hid
  split at hid
  · rename_i value hvalue
    rw [hvalue]
    cases value <;> cases hid
    rw [hreadId]
  · cases hid

/-- The row of a task is read as the task, with the subtasks that it has in the store. -/
theorem Tasks.hydrate_columns {read : Task} (h : task.subtasks = [])
    (hread : hydrate store (Record.ofFields task.columns) = .ok read) :
    ∃ subtasks, read = { task with subtasks } := by
  obtain ⟨decoded, hdecoded, hread⟩ := bind_eq_ok.mp hread
  cases (Task.ofJson_columns h).symm.trans (mapError_eq_ok.mp hdecoded)
  obtain ⟨subtasks, -, hread⟩ := bind_eq_ok.mp hread
  cases hread
  exact ⟨subtasks, rfl⟩

end Listing

/-! ### Added tasks -/

/-- A row with plain values that was added stands behind the others, whose doubles are read anew. -/
theorem Store.tableRows_appended {store store' : Store} {table : Table} {count : Nat}
    {fields : List (String × Json)} (hfields : ∀ field ∈ fields, field.2.Plain)
    (hrun : store.apply (.insertFields table fields .append) = .ok (count, store')) :
    ∃ rows, store.tableRows table = .ok rows ∧
      store'.tableRows table = .ok (rows.map Json.rereadFields ++ [Record.ofFields fields]) := by
  have hplain := Record.Plain.ofFields hfields
  obtain ⟨rows, written, hrows, heffect, hset⟩ := apply_cases hrun
  rw [effect_insertFields, if_pos rfl] at heffect
  cases heffect
  have hstorable : ∀ row ∈ rows ++ [Record.ofFields fields], Storable row :=
    List.forall_mem_append.mpr ⟨storable_of_rows (mapError_eq_ok.mp hrows),
      List.forall_mem_singleton.mpr hplain.storable⟩
  have hread : store'.rows table.name = _ := rows_setRows_self (mapError_eq_ok.mp hset)
  refine ⟨rows, hrows, mapError_eq_ok.mpr ?_⟩
  rw [hread, rowsOfText_storable _ hstorable, List.map_append, List.map_singleton,
    hplain.reread_eq]

/-- A store whose rows are plain and fit their tables, as it is after any run of operations that
restores no document. -/
def Store.Tidy (store : Store) : Prop := ∃ content, store.HoldsPlain content ∧ AllFit content

theorem tidy_afterTurns {turns : List Turn} (hrestores : ∀ turn ∈ turns, ¬ turn.operation.Restores)
    (now : Instant) : (afterTurns turns (CommandLine.fresh now)).store.Tidy := by
  obtain ⟨content, scheme, h, hfit, -⟩ :=
    fit_afterTurns hrestores (holdsPlain_fresh now) fit_fresh settings_fresh
  exact ⟨content, h, hfit⟩

theorem Store.Tidy.append {store : Store} (h : store.Tidy) (task : Task) : ∃ count store',
    store.apply (.insertFields .tasks task.columns .append) = .ok (count, store') ∧
      store'.Tidy := by
  obtain ⟨content, hcontent, hfit⟩ := h
  have hrun : store.apply (.insertFields .tasks task.columns .append) = _ :=
    apply_append hcontent.holds.takesWrites (hcontent.holds.tableRows .tasks)
  refine ⟨1, _, hrun, _, hcontent.apply ?_ hrun, Statement.forall_after
    (Statement.brings_insertFields task.fits_columns) hfit⟩
  exact List.forall_mem_map.mpr task.columns_id.plain

namespace Tasks

/-- The task that is created in a workspace. -/
def created (new : NewTask) (w : Workspace) : Task where
  id := idOfNumber (w.issued + 1)
  title := new.title
  description := new.description
  priority := new.priority
  status := new.status
  dueDate := new.dueDate
  createdAt := w.now.toText
  updatedAt := w.now.toText
  subtasks := []

/-- A task is created by one statement. -/
theorem create_eq (new : NewTask) (w : Workspace) : create new w =
    match w.store.apply (.insertFields .tasks (created new w).columns .append) with
    | .ok (_, store) => .ok (created new w) ⟨store, w.now, w.issued + 1⟩
    | .error e => .error e ⟨w.store, w.now, w.issued + 1⟩ := by
  change EStateM.bind (append .tasks (created new w).columns) (fun _ => pure (created new w))
    ⟨w.store, w.now, w.issued + 1⟩ = _
  have happend : append .tasks (created new w).columns ⟨w.store, w.now, w.issued + 1⟩ =
      match w.store.apply (.insertFields .tasks (created new w).columns .append) with
      | .ok (_, store) => .ok () ⟨store, w.now, w.issued + 1⟩
      | .error e => .error e ⟨w.store, w.now, w.issued + 1⟩ := by
    change EStateM.bind (change _) _ _ = _
    unfold EStateM.bind change
    dsimp only
    cases w.store.apply (.insertFields .tasks (created new w).columns .append) <;> rfl
  unfold EStateM.bind
  rw [happend]
  cases w.store.apply (.insertFields .tasks (created new w).columns .append) <;> rfl

end Tasks

namespace CommandLine

variable {title due name : String} {description : Option String} {priority : Option Priority}
  {t t' u : Terminal} {day : Date} {window : Window} {found : List Task}

/-- What a command asks for that adds a task with a due date. -/
def dueTask (title : String) (description : Option String) (priority : Option Priority)
    (due : String) : NewTask :=
  { title, description, priority := priority.getD .medium, dueDate := some due }

/-- A task with a due date that is read is added by one statement. -/
theorem addTask_eq (hread : Date.ofText due = .ok day) :
    addTask title description priority (some due) t =
      (do
        let task ← inDatabase (Tasks.create (dueTask title description priority due))
        print s!"Task created successfully (ID: {task.id})") t := by
  have hcheck : checkDate due = pure () := by
    unfold checkDate
    rw [hread]
  unfold addTask
  simp only [hcheck]
  rfl

theorem addTask_of_apply {count : Nat} {store : Store} (hread : Date.ofText due = .ok day)
    (hrun : t.workspace.store.apply (.insertFields .tasks
      (Tasks.created (dueTask title description priority due) t.workspace).columns .append) =
        .ok (count, store)) :
    ∃ t', addTask title description priority (some due) t = .ok () t' ∧
      t'.workspace.store = store := by
  rw [addTask_eq hread]
  change ∃ t', EStateM.bind _ _ t = .ok () t' ∧ _
  simp only [EStateM.bind, inDatabase, onWorkspace, Tasks.create_eq, hrun]
  exact ⟨_, rfl, rfl⟩

theorem apply_of_addTask (hread : Date.ofText due = .ok day)
    (h : addTask title description priority (some due) t = .ok () t') :
    ∃ count, t.workspace.store.apply (.insertFields .tasks
      (Tasks.created (dueTask title description priority due) t.workspace).columns .append) =
        .ok (count, t'.workspace.store) := by
  cases hrun : t.workspace.store.apply (.insertFields .tasks
      (Tasks.created (dueTask title description priority due) t.workspace).columns .append) with
  | ok result =>
    obtain ⟨count, store⟩ := result
    obtain ⟨t'', hadd, rfl⟩ := addTask_of_apply hread hrun
    cases h.symm.trans hadd
    exact ⟨count, rfl⟩
  | error e =>
    rw [addTask_eq hread] at h
    change EStateM.bind _ _ t = _ at h
    simp only [EStateM.bind, inDatabase, onWorkspace, Tasks.create_eq, hrun] at h
    cases h

/-- The tasks of a window are those of the day on which they are listed. -/
theorem findTasks_ok_iff (hname : Window.ofName? name = some window) :
    findTasks (some name) none none none u = .ok found t' ↔
      Tasks.dueIn window u.workspace.now.date u.workspace.store = .ok found ∧ t' = u := by
  simp only [findTasks, hname]
  change look (Tasks.dueIn window u.workspace.now.date) u = _ ↔ _
  unfold look inDatabase onWorkspace view
  cases Tasks.dueIn window u.workspace.now.date u.workspace.store with
  | error e => simp
  | ok listed => simp [eq_comm]

/-- After a task was added with a due date, a list of the tasks in a window has it if the window
catches the text, and only then if its id is new. -/
theorem mem_dueIn_added {today : Date} (hread : Date.ofText due = .ok day)
    (hadd : addTask title description priority (some due) t = .ok () t')
    (hfound : Tasks.dueIn window today t'.workspace.store = .ok found) :
    (window.Catches today due → ∃ task ∈ found, task.id = idOfNumber (t.workspace.issued + 1) ∧
      task.title = title ∧ task.dueDate = some due) ∧
    (t.workspace.store.Unused (idOfNumber (t.workspace.issued + 1)) →
      (∃ task ∈ found, task.id = idOfNumber (t.workspace.issued + 1)) →
        window.Catches today due) := by
  obtain ⟨count, hrun⟩ := apply_of_addTask hread hadd
  generalize htask : Tasks.created (dueTask title description priority due) t.workspace = task
    at hrun
  obtain ⟨rows, hrows, hafter⟩ := tableRows_appended task.columns_id.plain hrun
  obtain ⟨low, high, hbounds, hall, hmem⟩ := Tasks.mem_dueIn hafter hfound
  have hdue : (Record.ofFields task.columns).get? "due_date" = some (.text due) := by
    have hdate : task.dueDate = some due := by rw [← htask]; rfl
    simp [Task.columns, Record.ofFields, Record.get?_set_self, Record.get?_set_ne, hdate,
      Json.ofOptionalText]
  have hcatches : (Predicate.range "due_date" (.text low) (.text high)).holds
      (Record.ofFields task.columns) = true ↔ window.Catches today due := by
    rw [Predicate.range_texts hdue]
    simp [Window.Catches, hbounds]
  constructor
  · intro hcaught
    have hadded : Record.ofFields task.columns ∈ rows.map Json.rereadFields ++
        [Record.ofFields task.columns] := by simp
    obtain ⟨read, hread⟩ := hall _ hadded (hcatches.mpr hcaught)
    refine ⟨read, (hmem read).mpr ⟨_, hadded, hcatches.mpr hcaught, hread⟩, ?_⟩
    have hnone : task.subtasks = [] := by rw [← htask]; rfl
    obtain ⟨subtasks, rfl⟩ := Tasks.hydrate_columns hnone hread
    rw [← htask]
    exact ⟨rfl, rfl, rfl⟩
  · rintro hunused ⟨read, hread, hid⟩
    obtain ⟨row, hrow, hholds, hhydrate⟩ := (hmem read).mp hread
    obtain hold | hnew := List.mem_append.mp hrow
    · -- The rows from before keep their ids, none of which is that of the new task.
      obtain ⟨before, hbefore, rfl⟩ := List.mem_map.mp hold
      have hsame := Tasks.id_of_hydrate hhydrate
      rw [Record.get?_rereadFields, hid] at hsame
      obtain ⟨value, hvalue, hreread⟩ := Option.map_eq_some_iff.mp hsame
      have hunequal := hunused .tasks rows hrows before hbefore value hvalue
      cases value <;> cases hreread
      rw [Json.same_iff.mpr rfl] at hunequal
      cases hunequal
    · rw [List.mem_singleton.mp hnew] at hholds
      exact hcatches.mp hholds

/-- A due date is accepted, and where all rows fit the task is added and every window is listed that
the calendar has. A list has the task if the window catches the text of the due date, and only then if
the id of the task is new; and of all texts of a day of the years 0 to 9999 only that with four, two
and two digits is caught by all windows of those years with the day in them. -/
structure ListsDue (title : String) (description : Option String) (priority : Option Priority)
    (due : String) (day : Date) (t : Terminal) : Prop where
  adds : t.workspace.store.Tidy →
    ∃ t', addTask title description priority (some due) t = .ok () t' ∧
      ∀ (u : Terminal) name window, u.workspace.store = t'.workspace.store →
        Window.ofName? name = some window → window.InCalendar u.workspace.now.date →
          ∃ found, findTasks (some name) none none none u = .ok found u
  lists : ∀ t', addTask title description priority (some due) t = .ok () t' →
    ∀ (u : Terminal) name window found, u.workspace.store = t'.workspace.store →
      Window.ofName? name = some window → findTasks (some name) none none none u = .ok found u →
      window.Catches u.workspace.now.date due → ∃ task ∈ found,
        task.id = idOfNumber (t.workspace.issued + 1) ∧ task.title = title ∧
          task.dueDate = some due
  listsOnly : ∀ t', addTask title description priority (some due) t = .ok () t' →
    ∀ (u : Terminal) name window found, u.workspace.store = t'.workspace.store →
      Window.ofName? name = some window → findTasks (some name) none none none u = .ok found u →
      t.workspace.store.Unused (idOfNumber (t.workspace.issued + 1)) →
      (∃ task ∈ found, task.id = idOfNumber (t.workspace.issued + 1)) →
        window.Catches u.workspace.now.date due
  catches_iff : day.FourDigits → ((∀ (window : Window) today, window.Has today day →
    window.Catches today due) ↔ due = day.toText)

/-- A due date that is read is listed by the windows that catch its text. -/
theorem addTask_listed (hread : Date.ofText due = .ok day) :
    ListsDue title description priority due day t := by
  refine ⟨fun htidy => ?_, fun t' hadd u name window found hstore hname hfound => ?_,
    fun t' hadd u name window found hstore hname hfound => ?_, Window.catches_iff hread⟩
  · obtain ⟨count, store, hrun, content, hcontent, hfit⟩ :=
      htidy.append (Tasks.created (dueTask title description priority due) t.workspace)
    obtain ⟨t', hadd, rfl⟩ := addTask_of_apply hread hrun
    refine ⟨t', hadd, fun u name window hstore hname hcalendar => ?_⟩
    obtain ⟨found, hfound⟩ :=
      (hfit.dueIn_iff hcontent.holds window u.workspace.now.date).mpr hcalendar
    exact ⟨found, (findTasks_ok_iff hname).mpr ⟨hstore ▸ hfound, rfl⟩⟩
  · have hdue := ((findTasks_ok_iff hname).mp hfound).1
    rw [hstore] at hdue
    exact (mem_dueIn_added hread hadd hdue).1
  · have hdue := ((findTasks_ok_iff hname).mp hfound).1
    rw [hstore] at hdue
    exact (mem_dueIn_added hread hadd hdue).2

/-- A planner that was just made, at nine in the morning of 15 May 2024. -/
def morning : Terminal := ⟨fresh ⟨1715763600000⟩, [], "", "default"⟩

/-- The day of that morning. -/
def midMay : Date := ⟨2024, 5, 15, by decide⟩

theorem date_morning : morning.workspace.now.date = midMay := by decide +kernel

/-- The terminal of that morning once a store was changed. -/
def morningOn (store : Store) : Terminal :=
  { morning with workspace := { morning.workspace with store } }

theorem addTask_listed_morning : ∃ t' found,
    addTask "Pack" none none (some "2024-05-15") morning = .ok () t' ∧
    findTasks (some "month") none none none (morningOn t'.workspace.store) =
      .ok found (morningOn t'.workspace.store) ∧ ∃ task ∈ found, task.title = "Pack" := by
  have htext : midMay.toText = "2024-05-15" := by decide +kernel
  have hread : Date.ofText "2024-05-15" = .ok midMay := htext ▸ midMay.ofText_toText
  have hyears : midMay.FourDigits := ⟨by decide, by decide⟩
  have hhas : Window.month.Has midMay midMay := by
    refine ⟨⟨2024, 5, 1, by decide⟩, ⟨2024, 5, 31, by decide⟩, by decide +kernel, ?_⟩
    exact ⟨⟨by decide, by decide⟩, ⟨by decide, by decide⟩, by decide, by decide⟩
  have hunrestored : ∀ turn ∈ ([] : List Turn), ¬ turn.operation.Restores := by simp
  have hdue := @addTask_listed "Pack" _ none none morning _ hread
  obtain ⟨t', hadd, hwindows⟩ := hdue.adds (tidy_afterTurns hunrestored _)
  have hcalendar : Window.month.InCalendar morning.workspace.now.date := by
    rw [date_morning]
    exact .inl (by decide)
  obtain ⟨found, hfound⟩ :=
    hwindows (morningOn t'.workspace.store) "month" .month rfl rfl hcalendar
  have hcatches : Window.month.Catches morning.workspace.now.date "2024-05-15" := by
    rw [date_morning]
    exact (hdue.catches_iff hyears).mpr htext.symm .month midMay hhas
  obtain ⟨task, hmem, -, htitle, -⟩ := hdue.lists t' hadd (morningOn t'.workspace.store) "month"
    .month found rfl rfl hfound hcatches
  exact ⟨t', found, hadd, hfound, task, hmem, htitle⟩

/-- A task for that day is added, the month being written with one digit; it is accepted, but not
among the tasks of the day. -/
theorem not_listed_looseMay : Date.ofText "2024-5-15" = .ok midMay ∧
    Window.today.Has morning.workspace.now.date midMay ∧
    ∃ t', addTask "Pack" none none (some "2024-5-15") morning = .ok () t' ∧
      findTasks (some "today") none none none t' = .ok [] t' := by
  have hread : Date.ofText "2024-5-15" = .ok midMay := by
    obtain ⟨day, hday, hsame⟩ := exists_of_any (x := Date.ofText "2024-5-15")
      (p := fun day => decide (day = midMay)) (by decide +kernel)
    rw [hday, of_decide_eq_true hsame]
  have hyears : midMay.FourDigits := ⟨by decide, by decide⟩
  have hhas : Window.today.Has midMay midMay :=
    ⟨midMay, midMay, rfl, hyears, hyears, le_rfl, le_rfl⟩
  have hempty : (match addTask "Pack" none none (some "2024-5-15") morning with
      | .ok () t' => match findTasks (some "today") none none none t' with
        | .ok found _ => found.isEmpty
        | .error .. => false
      | .error .. => false) = true := by decide +kernel
  refine ⟨hread, date_morning ▸ hhas, ?_⟩
  split at hempty
  · rename_i t' hadd
    refine ⟨t', hadd, ?_⟩
    split at hempty
    · rename_i found u hfound
      rw [List.isEmpty_iff.mp hempty] at hfound
      rw [hfound, ((findTasks_ok_iff rfl).mp hfound).2]
    · cases hempty
  · cases hempty

end CommandLine
end Planner

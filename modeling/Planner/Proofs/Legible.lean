import Planner.Proofs.Contents
import Planner.Proofs.Date.Window
import Planner.Proofs.Entity.Entities
import Planner.Proofs.Listing

/-! What operations write can be read: every listing and every search gives a result in all states of
a run, as long as no document is restored. -/
namespace Planner

open Store Outcome
open CommandLine (storeAfter fresh)

/-! ### Rows that fit -/

/-- A row of the settings: its key and its value are texts. -/
def settingLayout : Layout :=
  ⟨"Setting", [.mandatory "key" Json.asText, .mandatory "value" Json.asText]⟩

/-- The layout that the rows of a table are read by. -/
def Table.layout : Table → Layout
  | .tasks => Task.layout
  | .subtasks => Subtask.layout
  | .notes => Note.layout
  | .events => Event.layout
  | .habits => Habit.layout
  | .habitLogs => HabitLog.layout
  | .routines => Routine.layout
  | .settings => settingLayout

/-- Whether every row fits the layout of its table. -/
def AllFit (content : Table → List Record) : Prop :=
  ∀ table, ∀ row ∈ content table, table.layout.Fits row

variable {store : Store} {content : Table → List Record} {w : Workspace} {statement : Statement}
  {operation : Operation} {α : Type}

theorem fits_setting (key value : String) :
    settingLayout.Fits (.ofFields [("key", .text key), ("value", .text value)]) := by
  refine .ofFields ?_ (by simp [settingLayout, Column.mandatory])
  simp only [List.forall_mem_cons]
  exact ⟨Layout.accepts_of rfl rfl, Layout.accepts_of rfl rfl, by simp⟩

namespace Statement

variable {table : Table} {fields : List (String × Json)} {conflict : OnConflict}
  {P : Record → Prop} {id : Json}

theorem brings_update {layout : Layout} (h : ∀ field ∈ fields, layout.Accepts field) :
    (update table fields id).Brings layout.Fits := fun _ hrow => hrow.foldl_set h

end Statement

/-- What an operation adds fits, and what it changes fits still, unless it restores a document. -/
theorem Operation.brings_fits (h : operation.Issues statement) (hrestores : ¬ operation.Restores) :
    statement.Brings statement.table.layout.Fits := by
  cases operation with
  | createTask | createNote | createEvent | createHabit | createRoutine =>
    obtain ⟨entity, rfl⟩ := h
    exact Statement.brings_insertFields entity.fits_columns
  | addSubtask | logHabit =>
    obtain ⟨entity, -, rfl⟩ := h
    exact Statement.brings_insertFields entity.fits_columns
  | updateTask id patch =>
    obtain ⟨now, rfl⟩ := h
    exact Statement.brings_update (Layout.accepts_updatedAt now rfl (Task.accepts_patch patch))
  | updateNote id patch =>
    obtain ⟨now, rfl⟩ := h
    exact Statement.brings_update (Layout.accepts_updatedAt now rfl (Note.accepts_patch patch))
  | updateEvent id patch =>
    obtain ⟨now, rfl⟩ := h
    exact Statement.brings_update (Layout.accepts_updatedAt now rfl (Event.accepts_patch patch))
  | updateHabit id patch =>
    subst h
    exact Statement.brings_update (Habit.accepts_patch patch)
  | updateRoutine id patch =>
    subst h
    exact Statement.brings_update (Routine.accepts_patch patch)
  | setSubtaskCompleted id completed =>
    subst h
    exact Statement.brings_update (List.forall_mem_singleton.mpr (Layout.accepts_of rfl rfl))
  | deleteTask | deleteHabit => rcases h with rfl | rfl <;> trivial
  | deleteSubtask | deleteNote | deleteEvent | deleteRoutine =>
    subst h
    trivial
  | setSetting key value =>
    subst h
    exact Statement.brings_insertFields (fits_setting _ _)
  | restore | restoreText => exact absurd trivial hrestores

/-! ### Reading -/

namespace Store.Holds

variable {read : Json → Except Json.Fault α} {select : Select}

/-- Rows that can all be read are read as entities. -/
theorem entities (h : store.Holds content) (hdistinct : select.distinct = none)
    (hread : ∀ row ∈ content select.table, Succeeds (read (.object row))) :
    Succeeds (store.entities read select) := by
  unfold Store.entities
  rw [h.query]
  exact .mapM fun row hrow => (hread row (Select.mem_of_mem_evaluate hdistinct hrow)).mapError

theorem entity? (h : store.Holds content) (hdistinct : select.distinct = none)
    (hread : ∀ row ∈ content select.table, Succeeds (read (.object row))) :
    Succeeds (store.entity? read select) := by
  unfold Store.entity?
  rw [h.queryOne]
  cases hfirst : (select.evaluate (content select.table)).head? with
  | none => exact .pure _
  | some row =>
    have hrow := Select.mem_of_mem_evaluate hdistinct (List.mem_of_mem_head? hfirst)
    change Succeeds (decodeRow select.table read row >>= fun a => Pure.pure (some a))
    exact (hread row hrow).mapError.bind fun _ => .pure _

end Store.Holds

/-- A store in which everything can be looked up. The tasks of a window need the calendar to reach as
far as the window does. -/
structure Legible (store : Store) : Prop where
  tasks : Succeeds (Tasks.all store)
  task : ∀ id, Succeeds (Tasks.get? id store)
  subtasks : ∀ taskId, Succeeds (Tasks.subtasks taskId store)
  tasksWith : ∀ text, Succeeds (Tasks.search text store)
  tasksOfPriority : ∀ priority, Succeeds (Tasks.ofPriority priority store)
  tasksOfStatus : ∀ status, Succeeds (Tasks.ofStatus status store)
  tasksDue : ∀ (window : Window) today,
    Succeeds (Tasks.dueIn window today store) ↔ window.InCalendar today
  notes : Succeeds (Notes.all store)
  note : ∀ id, Succeeds (Notes.get? id store)
  notesIn : ∀ folder, Succeeds (Notes.inFolder folder store)
  folders : Succeeds (Notes.folders store)
  notesWith : ∀ text, Succeeds (Notes.search text store)
  events : Succeeds (Events.all store)
  event : ∀ id, Succeeds (Events.get? id store)
  eventsStartingIn : ∀ start stop, Succeeds (Events.startingIn start stop store)
  eventsOfType : ∀ type, Succeeds (Events.ofType type store)
  habits : Succeeds (Habits.all store)
  habit : ∀ id, Succeeds (Habits.get? id store)
  habitLog : ∀ habitId date, Succeeds (Habits.getLog? habitId date store)
  habitLogs : ∀ habitId start stop, Succeeds (Habits.logs habitId start stop store)
  streak : ∀ habitId day, Succeeds (Habits.streak habitId day store)
  successRate : ∀ habitId days today, Succeeds (Habits.successRate habitId days today store)
  routines : Succeeds (Routines.all store)
  routine : ∀ id, Succeeds (Routines.get? id store)
  routinesOn : ∀ day, Succeeds (Routines.onDay day store)
  settings : Succeeds (Preferences.entries store)

theorem succeeds_folders (h : store.Holds content) : Succeeds (Notes.folders store) := by
  unfold Notes.folders
  rw [h.query]
  exact .pure _

theorem succeeds_entries (h : store.Holds content) : Succeeds (Preferences.entries store) := by
  unfold Preferences.entries
  rw [h.query]
  exact .pure _

theorem Habits.streakFrom_succ (habitId : String) (rows : List Record) (days : Nat) (day : Date) :
    streakFrom habitId rows (days + 1) day = (do
      if ← completedOn habitId day rows then
        match day.addDays? (-1) with
        | some before => return (← streakFrom habitId rows days before) + 1
        | none => return 1
      else return 0) := by
  rfl

namespace AllFit

variable {select : Select}

theorem subtasks (hfit : AllFit content) (h : store.Holds content) (taskId : String) :
    Succeeds (Tasks.subtasks taskId store) :=
  h.entities rfl fun row hrow => Subtask.ofJson_fits (hfit .subtasks row hrow)

theorem hydrate (hfit : AllFit content) (h : store.Holds content) {row : Record}
    (hrow : row ∈ content .tasks) : Succeeds (Tasks.hydrate store row) :=
  (Task.ofJson_fits (hfit .tasks row hrow)).mapError.bind fun task =>
    (hfit.subtasks h task.id).bind fun _ => .pure _

theorem tasks (hfit : AllFit content) (h : store.Holds content) (htable : select.table = .tasks)
    (hdistinct : select.distinct = none) : Succeeds (Tasks.select select store) := by
  unfold Tasks.select
  rw [h.query, htable]
  exact .mapM fun row hrow => hfit.hydrate h (Select.mem_of_mem_evaluate hdistinct hrow)

theorem task (hfit : AllFit content) (h : store.Holds content) (id : String) :
    Succeeds (Tasks.get? id store) := by
  unfold Tasks.get?
  rw [h.queryOne]
  cases hfirst : ((Select.byId .tasks id).evaluate (content (Select.byId .tasks id).table)).head? with
  | none => exact .pure _
  | some row =>
    have hrow := Select.mem_of_mem_evaluate rfl (List.mem_of_mem_head? hfirst)
    change Succeeds (Tasks.hydrate store row >>= fun task => Pure.pure (some task))
    exact (hfit.hydrate h hrow).bind fun _ => .pure _

/-- The tasks of a window are found unless the calendar ends before it does. -/
theorem dueIn_iff (hfit : AllFit content) (h : store.Holds content) (window : Window)
    (today : Date) : Succeeds (Tasks.dueIn window today store) ↔ window.InCalendar today := by
  rw [← Window.isSome_bounds?_iff]
  unfold Tasks.dueIn
  cases window.bounds? today with
  | none => exact iff_of_false (fun ⟨_, hok⟩ => by cases hok) (by simp)
  | some bounds => exact iff_of_true (hfit.tasks h rfl rfl) rfl

theorem notes (hfit : AllFit content) (h : store.Holds content) (htable : select.table = .notes)
    (hdistinct : select.distinct = none) : Succeeds (Notes.select select store) :=
  h.entities hdistinct fun row hrow => Note.ofJson_fits (hfit .notes row (htable ▸ hrow))

theorem events (hfit : AllFit content) (h : store.Holds content) (htable : select.table = .events)
    (hdistinct : select.distinct = none) : Succeeds (Events.select select store) :=
  h.entities hdistinct fun row hrow => Event.ofJson_fits (hfit .events row (htable ▸ hrow))

theorem logs (hfit : AllFit content) (h : store.Holds content) (habitId start stop : String) :
    Succeeds (Habits.logs habitId start stop store) :=
  h.entities rfl fun row hrow => HabitLog.ofJson_fits (hfit .habitLogs row hrow)

theorem completedOn (hfit : AllFit content) (habitId : String) (day : Date) :
    Succeeds (Habits.completedOn habitId day (content .habitLogs)) := by
  unfold Habits.completedOn
  cases hfirst : ((Habits.logOn habitId day.toText).evaluate (content .habitLogs)).head? with
  | none => exact .pure false
  | some row =>
    have hrow := Select.mem_of_mem_evaluate rfl (List.mem_of_mem_head? hfirst)
    exact (HabitLog.ofJson_fits (hfit .habitLogs row hrow)).mapError.bind fun _ => .pure _

theorem streakFrom (hfit : AllFit content) (habitId : String) (days : Nat) (day : Date) :
    Succeeds (Habits.streakFrom habitId (content .habitLogs) days day) := by
  induction days generalizing day with
  | zero => exact ⟨0, rfl⟩
  | succ days ih =>
    rw [Habits.streakFrom_succ]
    refine (hfit.completedOn habitId day).bind fun completed => ?_
    split_ifs
    · split
      · exact (ih _).bind fun _ => .pure _
      · exact .pure 1
    · exact .pure 0

theorem streak (hfit : AllFit content) (h : store.Holds content) (habitId : String) (day : Date) :
    Succeeds (Habits.streak habitId day store) := by
  unfold Habits.streak
  rw [h.tableRows]
  generalize (day.number - Date.first.number).toNat + 1 = days
  exact hfit.streakFrom habitId days day

theorem successRate (hfit : AllFit content) (h : store.Holds content) (habitId : String)
    (days : Nat) (today : Date) : Succeeds (Habits.successRate habitId days today store) := by
  unfold Habits.successRate
  split_ifs
  · exact .pure 0
  · exact (hfit.logs h habitId _ _).bind fun _ => .pure _

theorem routines (hfit : AllFit content) (h : store.Holds content) :
    Succeeds (Routines.all store) :=
  h.entities rfl fun row hrow => Routine.ofJson_fits (hfit .routines row hrow)

/-- Where all rows fit everything can be looked up. -/
theorem legible (hfit : AllFit content) (h : store.Holds content) : Legible store where
  tasks := hfit.tasks h rfl rfl
  task := hfit.task h
  subtasks := hfit.subtasks h
  tasksWith _ := hfit.tasks h rfl rfl
  tasksOfPriority _ := hfit.tasks h rfl rfl
  tasksOfStatus _ := hfit.tasks h rfl rfl
  tasksDue := hfit.dueIn_iff h
  notes := hfit.notes h rfl rfl
  note _ := h.entity? rfl fun row hrow => Note.ofJson_fits (hfit .notes row hrow)
  notesIn _ := hfit.notes h rfl rfl
  folders := succeeds_folders h
  notesWith _ := hfit.notes h rfl rfl
  events := hfit.events h rfl rfl
  event _ := h.entity? rfl fun row hrow => Event.ofJson_fits (hfit .events row hrow)
  eventsStartingIn _ _ := hfit.events h rfl rfl
  eventsOfType _ := hfit.events h rfl rfl
  habits := h.entities rfl fun row hrow => Habit.ofJson_fits (hfit .habits row hrow)
  habit _ := h.entity? rfl fun row hrow => Habit.ofJson_fits (hfit .habits row hrow)
  habitLog _ _ := h.entity? rfl fun row hrow => HabitLog.ofJson_fits (hfit .habitLogs row hrow)
  habitLogs := hfit.logs h
  streak := hfit.streak h
  successRate := hfit.successRate h
  routines := hfit.routines h
  routine _ := h.entity? rfl fun row hrow => Routine.ofJson_fits (hfit .routines row hrow)
  routinesOn _ := (hfit.routines h).bind fun _ => .pure _
  settings := succeeds_entries h

end AllFit

/-! ### Settings -/

/-- A row of the settings. -/
def settingRow (key : SettingKey) (value : String) : Record :=
  [("key", .text key.name), ("value", .text value)]

/-- The rows of the settings, as they stand since the planner was made. -/
def settingRows (theme scheme : String) : List Record :=
  [settingRow .theme theme, settingRow .colorScheme scheme]

/-- The setting that is set takes the place of the one that was there. -/
theorem rowsAfter_set (key : SettingKey) (value theme scheme : String) :
    (Statement.insertFields .settings [("key", .text key.name), ("value", .text value)]
        .replace).rowsAfter (settingRows theme scheme) =
      match key with
      | .theme => settingRows value scheme
      | .colorScheme => settingRows theme value := by
  unfold Statement.rowsAfter
  rw [effect_insertFields, if_neg (by decide),
    Record.ofFields_of_ordered (plain_setting ..).ordered]
  cases key <;> rfl

theorem after_set (key : SettingKey) (value : String) {theme scheme : String}
    (h : content .settings = settingRows theme scheme) :
    (Statement.insertFields .settings [("key", .text key.name), ("value", .text value)]
        .replace).after content .settings =
      match key with
      | .theme => settingRows value scheme
      | .colorScheme => settingRows theme value := by
  refine Statement.after_self.trans ?_
  change Statement.rowsAfter _ (content .settings) = _
  rw [h, rowsAfter_set]

theorem ofFields_settings (theme scheme : String) :
    Record.ofFields [("theme", Json.text theme), ("colorScheme", .text scheme)] =
      [("colorScheme", .text scheme), ("theme", .text theme)] := by
  have hlt : "colorScheme" < "theme" := by decide
  simp [Record.ofFields, Record.set, hlt]

theorem succeeds_ofName_iff (theme : String) :
    Succeeds (Choice.ofName theme : Except Json.Fault Theme) ↔ theme = "light" ∨ theme = "dark" := by
  constructor
  · rintro ⟨a, ha⟩
    unfold Choice.ofName at ha
    split at ha
    · rename_i found hfound
      have hnamed := List.find?_some hfound
      have hname : Choice.name found = theme := of_decide_eq_true hnamed
      cases found with
      | light => exact .inl hname.symm
      | dark => exact .inr hname.symm
    · cases ha
  · rintro (rfl | rfl)
    · exact ⟨.light, rfl⟩
    · exact ⟨.dark, rfl⟩

/-- The settings are read when the theme is one of the two, and only then. -/
theorem succeeds_get_iff {theme scheme : String} (h : store.Holds content)
    (hsettings : content .settings = settingRows theme scheme) :
    Succeeds (Preferences.get store) ↔ theme = "light" ∨ theme = "dark" := by
  rw [← succeeds_ofName_iff]
  have hentries : Preferences.entries store = .ok [("theme", theme), ("colorScheme", scheme)] := by
    unfold Preferences.entries
    rw [h.query]
    change Except.ok (((Select.everything .settings).evaluate (content .settings)).filterMap _) = _
    rw [hsettings]
    rfl
  unfold Preferences.get
  rw [hentries]
  change Succeeds (decodeRow .settings Settings.ofJson
    (.ofFields [("theme", .text theme), ("colorScheme", .text scheme)])) ↔ _
  rw [ofFields_settings]
  constructor
  · rintro ⟨settings, hget⟩
    obtain ⟨row, hrow, -⟩ := bind_eq_ok.mp (mapError_eq_ok.mp hget)
    have haccepts := Layout.accepts_of_row hrow ("theme", .text theme) (by simp)
    exact Layout.succeeds_of_checked (haccepts _ rfl)
  · rintro ⟨chosen, hchosen⟩
    have hread : (Choice.read (.text theme) : Except Json.Fault Theme) = .ok chosen := hchosen
    have hfits : Settings.layout.Fits [("colorScheme", .text scheme), ("theme", .text theme)] := by
      refine ⟨?_, by simp [Settings.layout, Column.optional]⟩
      simp only [List.forall_mem_cons]
      refine ⟨Layout.accepts_of rfl rfl, Layout.accepts_of rfl ?_, by simp⟩
      change Column.checked (Choice.read (α := Theme)) (.text theme) = _
      rw [Column.checked, hread]
      rfl
    exact (hfits.object ((hfits.optional Theme.light rfl).bind fun _ =>
      (hfits.optional "blue" rfl).bind fun _ => .pure _)).mapError

/-! ### Runs -/

namespace Operation

/-- The theme that an operation sets. -/
def theme? : Operation → Option String
  | setSetting .theme value => some value
  | _ => none

theorem settings_ne_of_issues (h : operation.Issues statement) (hrestores : ¬ operation.Restores)
    (hset : ∀ key value, operation ≠ .setSetting key value) : statement.table ≠ .settings := by
  intro hsettings
  have hmem := table_of_issues h
  rw [hsettings] at hmem
  cases operation with
  | setSetting key value => exact hset key value rfl
  | restore | restoreText => exact hrestores trivial
  | _ => simp [tables] at hmem

/-- After an operation all rows fit if they did before it, and the theme is the one that it set. -/
theorem fit_on (operation : Operation) (hrestores : ¬ operation.Restores) {theme scheme : String}
    (h : w.store.HoldsPlain content) (hfit : AllFit content)
    (hsettings : content .settings = settingRows theme scheme) :
    ∃ content scheme, (operation.on w).store.HoldsPlain content ∧ AllFit content ∧
      content .settings = settingRows (operation.theme?.getD theme) scheme := by
  have hplain : ∀ statement, operation.Issues statement → ∀ v ∈ statement.values, v.Plain :=
    fun _ hissues => plain_of_issues hissues hrestores
  have hbrings : ∀ statement, operation.Issues statement →
      statement.Brings statement.table.layout.Fits := fun _ hissues => brings_fits hissues hrestores
  by_cases hset : ∃ key value, operation = .setSetting key value
  · obtain ⟨key, value, rfl⟩ := hset
    have hon : (on w (.setSetting key value)).store = storeAfter (.insertFields .settings
        [("key", .text key.name), ("value", .text value)] .replace) w.store :=
      congrArg Workspace.store ((stateAfter_bind_pure _ _ w).trans (Workspace.stateAfter_run _ w))
    have hafter := h.storeAfter (hplain _ rfl)
    have hfit' := Statement.forall_after (hbrings _ rfl) hfit
    rw [hon]
    cases key with
    | theme => exact ⟨_, scheme, hafter, hfit', after_set .theme value hsettings⟩
    | colorScheme => exact ⟨_, value, hafter, hfit', after_set .colorScheme value hsettings⟩
  · push Not at hset
    have htheme : operation.theme? = none := by
      unfold theme?
      split
      · exact absurd rfl (hset _ _)
      · rfl
    obtain ⟨content', hcontent', hfit', hsettings'⟩ := (operation.reaches_on w).holdsPlain
      (J := fun content => AllFit content ∧ content .settings = settingRows theme scheme) hplain
      (fun statement content hissues ⟨hfit, hsettings⟩ =>
        ⟨Statement.forall_after (hbrings statement hissues) hfit,
          (Statement.after_ne (settings_ne_of_issues hissues hrestores hset).symm).trans hsettings⟩)
      ⟨content, h, hfit, hsettings⟩
    rw [htheme]
    exact ⟨content', scheme, hcontent', hfit', hsettings'⟩

end Operation

/-- The last theme that was set. -/
def lastTheme? (turns : List Turn) : Option String :=
  (turns.filterMap (·.operation.theme?)).getLast?

theorem fit_afterTurns {turns : List Turn} (hrestores : ∀ turn ∈ turns, ¬ turn.operation.Restores)
    {theme scheme : String} (h : w.store.HoldsPlain content) (hfit : AllFit content)
    (hsettings : content .settings = settingRows theme scheme) :
    ∃ content scheme, (afterTurns turns w).store.HoldsPlain content ∧ AllFit content ∧
      content .settings = settingRows ((lastTheme? turns).getD theme) scheme := by
  induction turns generalizing w content theme scheme with
  | nil => exact ⟨content, scheme, h, hfit, hsettings⟩
  | cons first rest ih =>
    obtain ⟨hfirst, hrest⟩ := List.forall_mem_cons.mp hrestores
    obtain ⟨content', scheme', h', hfit', hsettings'⟩ :=
      first.operation.fit_on hfirst (w := first.start w) h hfit hsettings
    obtain ⟨content'', scheme'', h'', hfit'', hsettings''⟩ := ih hrest h' hfit' hsettings'
    refine ⟨content'', scheme'', h'', hfit'', hsettings''.trans ?_⟩
    have hlast : lastTheme? (first :: rest) = (lastTheme? rest).or first.operation.theme? := by
      unfold lastTheme?
      cases htheme : first.operation.theme? with
      | none => simp [htheme]
      | some chosen => simp [htheme, List.getLast?_cons]
    rw [hlast]
    cases lastTheme? rest <;> rfl

theorem fit_fresh : AllFit (Function.update (fun _ => []) .settings defaultSettings) := by
  have hdefault : ∀ row ∈ defaultSettings, settingLayout.Fits row := by
    have hrow : ∀ key value : String, settingLayout.Fits [("key", .text key), ("value", .text value)] := by
      intro key value
      rw [← Record.ofFields_of_ordered (plain_setting key value).ordered]
      exact fits_setting key value
    simp only [defaultSettings, List.forall_mem_cons]
    exact ⟨hrow _ _, hrow _ _, by simp⟩
  intro table row hrow
  by_cases hsettings : table = .settings
  · subst hsettings
    rw [Function.update_self] at hrow
    exact hdefault row hrow
  · rw [Function.update_of_ne hsettings] at hrow
    cases hrow

theorem settings_fresh :
    Function.update (fun _ => []) Table.settings defaultSettings .settings =
      settingRows "light" "blue" := Function.update_self ..

/-- In every state of a run from a planner that was just made, in which no document is restored,
everything can be looked up, though the tasks of a window only as far as the calendar reaches; and the
settings are read when the last theme that was set, if any, is one of the two. -/
theorem legible_throughout (now : Instant) (turns : List Turn)
    (hrestores : ∀ turn ∈ turns, ¬ turn.operation.Restores) (n : Nat) :
    Legible (afterTurns (turns.take n) (fresh now)).store ∧
      (Succeeds (Preferences.get (afterTurns (turns.take n) (fresh now)).store) ↔
        ∀ theme ∈ lastTheme? (turns.take n), theme = "light" ∨ theme = "dark") := by
  obtain ⟨content, scheme, h, hfit, hsettings⟩ := fit_afterTurns
    (fun turn hturn => hrestores turn (List.mem_of_mem_take hturn)) (holdsPlain_fresh now) fit_fresh
    settings_fresh
  refine ⟨hfit.legible h.holds, (succeeds_get_iff h.holds hsettings).trans ?_⟩
  cases lastTheme? (turns.take n) <;> simp

/-- A note with tags is written, and a theme is set that there is not, and then one that there is. -/
def dressing : List Turn := [
  ⟨⟨0⟩, 0, .createNote { title := "Diary", tags := ["a, b", "\"c\""] }⟩,
  ⟨⟨1⟩, 1, .setSetting .theme "dim"⟩, ⟨⟨2⟩, 1, .setSetting .theme "dark"⟩]

theorem legible_dressing :
    Succeeds (Notes.all (afterTurns (dressing.take 3) (fresh ⟨0⟩)).store) ∧
      Succeeds (Preferences.get (afterTurns (dressing.take 3) (fresh ⟨0⟩)).store) ∧
      ¬ Succeeds (Preferences.get (afterTurns (dressing.take 2) (fresh ⟨0⟩)).store) := by
  have hrestores : ∀ turn ∈ dressing, ¬ turn.operation.Restores := by
    simp [dressing, Operation.Restores]
  obtain ⟨hlegible, hdark⟩ := legible_throughout ⟨0⟩ dressing hrestores 3
  obtain ⟨-, hdim⟩ := legible_throughout ⟨0⟩ dressing hrestores 2
  have hlast : lastTheme? (dressing.take 3) = some "dark" := rfl
  have hbefore : lastTheme? (dressing.take 2) = some "dim" := rfl
  rw [hlast] at hdark
  rw [hbefore] at hdim
  exact ⟨hlegible.notes, hdark.mpr (by simp), fun h => absurd (hdim.mp h) (by simp)⟩

/-- A day of the last month there is. -/
def lastDecember : Date := ⟨262142, 12, 15, by decide⟩

/-- The calendar has all days of that month, but its tasks are not found, not even none. -/
theorem not_dueIn_lastDecember :
    (∀ day : Nat, 1 ≤ day → day ≤ 31 → Calendar.HasDay 262142 12 day) ∧
      ¬ Succeeds (Tasks.dueIn .month lastDecember (fresh ⟨0⟩).store) := by
  constructor
  · intro day hlow hhigh
    exact ⟨by decide, by decide, hlow, hhigh⟩
  · have hnone : (Tasks.dueIn .month lastDecember (fresh ⟨0⟩).store).toOption.isNone = true := by
      decide +kernel
    rintro ⟨tasks, htasks⟩
    rw [htasks] at hnone
    cases hnone

end Planner

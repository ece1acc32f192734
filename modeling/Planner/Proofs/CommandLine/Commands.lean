import Planner.CommandLine.Run
import Planner.Proofs.Store.Operation
import Planner.Proofs.Transfer.Restore

/-! The operations that each command but a query carries out, and what they leave true. -/
namespace Planner

theorem Transfer.keeps_restoreText (text : String) : Keeps Workspace.Healthy (restoreText text) := by
  intro w h
  obtain ⟨content, hw⟩ := h.exists_holds
  unfold restoreText
  cases hdocument : documentOfText text with
  | error fault => exact h
  | ok document =>
    by_cases hkeyed : Keyed document.data
    · obtain ⟨store', hrun, hstore⟩ := restore_eq_ok document hw hkeyed
        (storable_of_documentOfText hdocument)
      simp only [hrun]
      exact hstore.healthy
    · obtain ⟨table, index, column, herror⟩ := restore_eq_error document hkeyed w
      simp only [herror]
      exact h

namespace CommandLine

/-- The operations that a command may carry out on a workspace. A row is only added to a task or a
habit that was found. -/
inductive Performs (w : Workspace) : Command → Operation → Prop
  | addTask (title : String) (description : Option String) (priority : Option Priority)
      (due : Option String) :
    Performs w (.addTask title description priority due) <| .createTask
      { title, description, priority := priority.getD .medium, dueDate := due }
  | completeTask (id : String) :
    Performs w (.completeTask id) (.updateTask id { status := some .complete })
  | deleteTask (id : String) : Performs w (.deleteTask id) (.deleteTask id)
  | addSubtask (taskId title : String) (task : Task)
      (found : Tasks.get? taskId w.store = .ok (some task)) :
    Performs w (.addSubtask taskId title) (.addSubtask taskId title)
  | addNote (title : String) (content folder tags : Option String) (noteFolder : String) :
    Performs w (.addNote title content folder tags) <| .createNote
      { title, content := content.getD "", folder := folder.getD noteFolder,
        tags := (tags.map splitList).getD [] }
  | addEvent (title start : String) (stop location : Option String) (type : Option EventType) :
    Performs w (.addEvent title start stop location type) <| .createEvent
      { title, startTime := start, endTime := stop, location, type := type.getD .personal }
  | addHabit (name : String) (frequency : Option Frequency) :
    Performs w (.addHabit name frequency)
      (.createHabit { name, frequency := frequency.getD .daily })
  | logHabit (habitId : String) (date : Option String) (missed : Bool) (habit : Habit)
      (found : Habits.get? habitId w.store = .ok (some habit)) :
    Performs w (.logHabit habitId date missed)
      (.logHabit habitId (date.getD w.now.date.toText) !missed)
  | addRoutine (title start stop days : String) :
    Performs w (.addRoutine title start stop days)
      (.createRoutine { title, startTime := start, endTime := stop, days := splitList days })
  | setSetting (key : SettingKey) (value : String) :
    Performs w (.setSetting key value) (.setSetting key value)
  | restore (path text : String) : Performs w (.restore path) (.restoreText text)

/-- Whether the workspace that a command works on has a property. -/
def Terminal.Has (I : Workspace → Prop) (t : Terminal) : Prop := I t.workspace

open Terminal

variable {ε α β : Type} {I : Workspace → Prop} {t : Terminal}

theorem keeps_print (line : String) : Keeps (Has I) (print line) := fun _ h => h

theorem stateAfter_onWorkspace (wrap : ε → CommandError) (action : Action ε α) (t : Terminal) :
    (stateAfter (onWorkspace wrap action t)).workspace = stateAfter (action t.workspace) := by
  unfold onWorkspace
  cases action t.workspace <;> rfl

theorem keeps_onWorkspace {wrap : ε → CommandError} {action : Action ε α} (h : Keeps I action) :
    Keeps (Has I) (onWorkspace wrap action) := by
  intro t ht
  unfold Has
  rw [stateAfter_onWorkspace]
  exact h t.workspace ht

theorem keeps_inDatabase {action : Action DatabaseError α} (h : Keeps I action) :
    Keeps (Has I) (inDatabase action) := keeps_onWorkspace h

theorem keeps_look (read : Store → Except DatabaseError α) : Keeps (Has I) (look read) :=
  keeps_inDatabase (Workspace.keeps_view read)

theorem keeps_readFile (path : String) : Keeps (Has I) (readFile path) := by
  intro t h
  unfold readFile
  cases t.files.read path <;> exact h

theorem keeps_writeFile (path text : String) : Keeps (Has I) (writeFile path text) := by
  intro t h
  unfold writeFile
  cases t.files.write path text <;> exact h

theorem keeps_checkDate (text : String) : Keeps (Has I) (checkDate text) := by
  unfold checkDate
  cases Date.ofText text with
  | ok _ => exact .pure _
  | error e => exact .throw _

theorem keeps_today : Keeps (Has I) today := fun _ h => h

/-- Items are printed one by one, or what is said when there are none. -/
theorem keeps_list {found : List α} {none : String} {work : α → Work Unit}
    (h : ∀ a, Keeps (Has I) (work a)) :
    Keeps (Has I) (do
      if found.isEmpty then print none
      found.forM work) := by
  dsimp only
  split_ifs
  · exact (keeps_print _).bind fun _ => .forM h
  · exact .forM h

/-- Work that stops early keeps what the rest keeps. -/
theorem keeps_unless {condition : Bool} {e : CommandError} {work : Work α}
    (h : Keeps (Has I) work) :
    Keeps (Has I) (do
      if condition then throw e
      work) := by
  dsimp only
  split_ifs
  · exact (Keeps.throw e).bind fun _ => h
  · exact h

/-- Work on something that has to be found first leaves true what it leaves true where that is
found. -/
theorem has_found {read : Store → Except DatabaseError (Option β)} {e : CommandError}
    {work : Work α} (ht : Has I t) (h : ∀ b, read t.workspace.store = .ok (some b) →
      Has I (stateAfter (work t))) :
    Has I (stateAfter ((do
      if (← look read).isNone then throw e
      work) t)) := by
  change Has I (stateAfter (EStateM.bind _ _ t))
  unfold EStateM.bind look inDatabase onWorkspace Workspace.view
  cases hread : read t.workspace.store with
  | error e => exact ht
  | ok found =>
    cases found with
    | none => exact ht
    | some b => exact h b hread

theorem keeps_addTask {title : String} {description : Option String} {priority : Option Priority}
    {due : Option String} (h : Keeps I (Tasks.create
      { title, description, priority := priority.getD .medium, dueDate := due })) :
    Keeps (Has I) (addTask title description priority due) := by
  have hcreate := (keeps_inDatabase h).bind
    fun task => keeps_print s!"Task created successfully (ID: {task.id})"
  cases due with
  | none => exact hcreate
  | some due => exact (keeps_checkDate due).bind fun _ => hcreate

theorem keeps_printTask (task : Task) : Keeps (Has I) (printTask task) :=
  (keeps_print _).bind fun _ =>
    (Keeps.forIn fun _ _ => (keeps_print _).bind fun _ => .pure _).bind fun _ => .pure _

theorem keeps_findTasks (due : Option String) (priority : Option Priority)
    (status : Option TaskStatus) (search : Option String) :
    Keeps (Has I) (findTasks due priority status search) := by
  unfold findTasks
  split
  · split
    · exact keeps_today.bind fun _ => keeps_look _
    · exact .throw _
  all_goals exact keeps_look _

theorem keeps_listTasks (due : Option String) (priority : Option Priority)
    (status : Option TaskStatus) (search : Option String) :
    Keeps (Has I) (listTasks due priority status search) :=
  (keeps_findTasks due priority status search).bind fun _ => keeps_list keeps_printTask

theorem keeps_completeTask {id : String}
    (h : Keeps I (Tasks.update id { status := some .complete })) :
    Keeps (Has I) (completeTask id) := by
  refine (keeps_inDatabase h).bind fun task => ?_
  cases task <;> exact keeps_print _

theorem keeps_deleteTask {id : String} (h : Keeps I (Tasks.delete id)) :
    Keeps (Has I) (deleteTask id) := by
  refine (keeps_inDatabase h).bind fun removed => ?_
  split_ifs <;> exact keeps_print _

theorem keeps_addSubtask {taskId title : String}
    (h : ∀ w task, Tasks.get? taskId w.store = .ok (some task) → I w →
      I (stateAfter (Tasks.addSubtask taskId title w))) :
    Keeps (Has I) (addSubtask taskId title) := by
  intro t ht
  refine has_found ht fun task hfound => Keeps.stateAfter_bind ?_ fun _ => keeps_print _
  unfold inDatabase Has
  rw [stateAfter_onWorkspace]
  exact h t.workspace task hfound ht

theorem keeps_addNote {title : String} {content folder tags : Option String}
    (h : ∀ noteFolder, Keeps I (Notes.create
      { title, content := content.getD "", folder := folder.getD noteFolder,
        tags := (tags.map splitList).getD [] })) :
    Keeps (Has I) (addNote title content folder tags) :=
  Keeps.get.bind fun t => (keeps_inDatabase (h t.noteFolder)).bind fun _ => keeps_print _

theorem keeps_listNotes (folder search : Option String) :
    Keeps (Has I) (listNotes folder search) := by
  unfold listNotes
  split <;> exact (keeps_look _).bind fun _ => keeps_list fun _ => keeps_print _

theorem keeps_addEvent {title start : String} {stop location : Option String}
    {type : Option EventType} (h : Keeps I (Events.create
      { title, startTime := start, endTime := stop, location, type := type.getD .personal })) :
    Keeps (Has I) (addEvent title start stop location type) :=
  (keeps_inDatabase h).bind fun _ => keeps_print _

theorem keeps_listEvents (start stop : Option String) : Keeps (Has I) (listEvents start stop) := by
  unfold listEvents
  split
  · exact (keeps_look _).bind fun _ => keeps_list fun _ => keeps_print _
  · exact (keeps_look _).bind fun _ => keeps_list fun _ => keeps_print _
  · exact (Keeps.throw _).bind fun _ => keeps_list fun _ => keeps_print _

theorem keeps_addHabit {name : String} {frequency : Option Frequency}
    (h : Keeps I (Habits.create { name, frequency := frequency.getD .daily })) :
    Keeps (Has I) (addHabit name frequency) :=
  (keeps_inDatabase h).bind fun _ => keeps_print _

theorem keeps_logHabit {habitId : String} {date : Option String} {missed : Bool}
    (h : ∀ w habit, Habits.get? habitId w.store = .ok (some habit) → I w →
      I (stateAfter (Habits.log habitId (date.getD w.now.date.toText) (!missed) w))) :
    Keeps (Has I) (logHabit habitId date missed) := by
  intro t ht
  have hentry : ∀ habit, Habits.get? habitId t.workspace.store = .ok (some habit) →
      Has I (stateAfter ((do
        let entry ← inDatabase (Habits.log habitId (date.getD t.workspace.now.date.toText) !missed)
        let streak ← look (Habits.streak habitId t.workspace.now.date)
        let outcome := if entry.completed then "done" else "missed"
        print s!"Logged {entry.date} as {outcome} (streak: {streak})" : Work Unit) t)) := by
    intro habit hfound
    refine Keeps.stateAfter_bind ?_ fun _ => (keeps_look _).bind fun _ => keeps_print _
    unfold inDatabase Has
    rw [stateAfter_onWorkspace]
    exact h t.workspace habit hfound ht
  change Has I (stateAfter (EStateM.bind (checkDate (date.getD t.workspace.now.date.toText)) _ t))
  unfold checkDate EStateM.bind
  cases Date.ofText (date.getD t.workspace.now.date.toText) with
  | error e => exact ht
  | ok day => exact has_found ht hentry

theorem keeps_printHabit (habit : Habit) : Keeps (Has I) (printHabit habit) :=
  keeps_today.bind fun _ => (keeps_look _).bind fun _ => (keeps_look _).bind fun _ =>
    keeps_print _

theorem keeps_listHabits : Keeps (Has I) listHabits :=
  (keeps_look _).bind fun _ => keeps_list keeps_printHabit

theorem keeps_addRoutine {title start stop days : String} (h : Keeps I (Routines.create
      { title, startTime := start, endTime := stop, days := splitList days })) :
    Keeps (Has I) (addRoutine title start stop days) :=
  keeps_unless <| (keeps_inDatabase h).bind fun _ => keeps_print _

theorem keeps_listRoutines (day : Option String) : Keeps (Has I) (listRoutines day) := by
  unfold listRoutines
  split <;> exact (keeps_look _).bind fun _ => keeps_list fun _ => keeps_print _

theorem keeps_showSettings : Keeps (Has I) showSettings :=
  (keeps_look _).bind fun _ =>
    (Keeps.forIn fun _ _ => (keeps_print _).bind fun _ => .pure _).bind fun _ => .pure _

theorem keeps_setSetting {key : SettingKey} {value : String}
    (h : Keeps I (Preferences.set key value)) : Keeps (Has I) (setSetting key value) :=
  (keeps_inDatabase h).bind fun _ => keeps_print _

theorem keeps_snapshot (path : String) : Keeps (Has I) (snapshot path) :=
  (Keeps.get.bind fun _ => keeps_onWorkspace (Workspace.keeps_view _)).bind fun text =>
    (keeps_writeFile path text).bind fun _ => keeps_print _

theorem keeps_restore {path : String} (h : ∀ text, Keeps I (Transfer.restoreText text)) :
    Keeps (Has I) (restore path) :=
  (keeps_readFile path).bind fun text =>
    (keeps_onWorkspace (h text)).bind fun _ => keeps_print _

/-- Whether a command is a query. -/
def Command.IsQuery : Command → Prop
  | .query .. => True
  | _ => False

/-- What the operations leave true that a command carries out is true after the command, unless
that is a query. -/
theorem keeps_performed {command : Command} (hquery : ¬ command.IsQuery)
    (h : ∀ w operation, Performs w command operation → I w → I (operation.on w)) :
    Keeps (Has I) (run command) := by
  cases command with
  | addTask => exact keeps_addTask fun w => h w _ (.addTask ..)
  | tasks => exact keeps_listTasks _ _ _ _
  | completeTask => exact keeps_completeTask fun w => h w _ (.completeTask _)
  | deleteTask => exact keeps_deleteTask fun w => h w _ (.deleteTask _)
  | addSubtask => exact keeps_addSubtask fun w task found => h w _ (.addSubtask _ _ task found)
  | addNote => exact keeps_addNote fun noteFolder w => h w _ (.addNote _ _ _ _ noteFolder)
  | notes => exact keeps_listNotes _ _
  | addEvent => exact keeps_addEvent fun w => h w _ (.addEvent ..)
  | events => exact keeps_listEvents _ _
  | addHabit => exact keeps_addHabit fun w => h w _ (.addHabit ..)
  | logHabit => exact keeps_logHabit fun w habit found => h w _ (.logHabit _ _ _ habit found)
  | habits => exact keeps_listHabits
  | addRoutine => exact keeps_addRoutine fun w => h w _ (.addRoutine ..)
  | routines => exact keeps_listRoutines _
  | settings => exact keeps_showSettings
  | setSetting => exact keeps_setSetting fun w => h w _ (.setSetting ..)
  | snapshot => exact keeps_snapshot _
  | restore => exact keeps_restore fun text w => h w _ (.restore _ text)
  | query => exact absurd trivial hquery

/-- No command but a query can leave a table that cannot be read. -/
theorem keeps_run {command : Command} (h : ¬ command.IsQuery) :
    Keeps (Has Workspace.Healthy) (run command) := by
  refine keeps_performed h fun w operation hperforms hw => ?_
  cases hperforms with
  | restore path text => exact Transfer.keeps_restoreText text w hw
  | _ => exact Operation.healthy_on id hw

end CommandLine
end Planner

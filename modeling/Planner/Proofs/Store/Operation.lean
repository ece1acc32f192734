import Planner.Proofs.Store.Actions
import Planner.Transfer

/-! What can be done to a planner, and the statements by which it is done. -/
namespace Planner

open Workspace

/-- What can be done to a planner. -/
inductive Operation
  | createTask (new : NewTask)
  | updateTask (id : String) (patch : TaskPatch)
  | deleteTask (id : String)
  | addSubtask (taskId title : String)
  | setSubtaskCompleted (id : String) (completed : Bool)
  | deleteSubtask (id : String)
  | createNote (new : NewNote)
  | updateNote (id : String) (patch : NotePatch)
  | deleteNote (id : String)
  | createEvent (new : NewEvent)
  | updateEvent (id : String) (patch : EventPatch)
  | deleteEvent (id : String)
  | createHabit (new : NewHabit)
  | updateHabit (id : String) (patch : HabitPatch)
  | deleteHabit (id : String)
  | logHabit (habitId date : String) (completed : Bool)
  | createRoutine (new : NewRoutine)
  | updateRoutine (id : String) (patch : RoutinePatch)
  | deleteRoutine (id : String)
  | setSetting (key : SettingKey) (value : String)
  | restore (document : Document)
  | restoreText (text : String)

namespace Operation

/-- The workspace after an operation, whether it went well or not. -/
def on (w : Workspace) : Operation → Workspace
  | createTask new => stateAfter (Tasks.create new w)
  | updateTask id patch => stateAfter (Tasks.update id patch w)
  | deleteTask id => stateAfter (Tasks.delete id w)
  | addSubtask taskId title => stateAfter (Tasks.addSubtask taskId title w)
  | setSubtaskCompleted id completed => stateAfter (Tasks.setSubtaskCompleted id completed w)
  | deleteSubtask id => stateAfter (Tasks.deleteSubtask id w)
  | createNote new => stateAfter (Notes.create new w)
  | updateNote id patch => stateAfter (Notes.update id patch w)
  | deleteNote id => stateAfter (Notes.delete id w)
  | createEvent new => stateAfter (Events.create new w)
  | updateEvent id patch => stateAfter (Events.update id patch w)
  | deleteEvent id => stateAfter (Events.delete id w)
  | createHabit new => stateAfter (Habits.create new w)
  | updateHabit id patch => stateAfter (Habits.update id patch w)
  | deleteHabit id => stateAfter (Habits.delete id w)
  | logHabit habitId date completed => stateAfter (Habits.log habitId date completed w)
  | createRoutine new => stateAfter (Routines.create new w)
  | updateRoutine id patch => stateAfter (Routines.update id patch w)
  | deleteRoutine id => stateAfter (Routines.delete id w)
  | setSetting key value => stateAfter (Preferences.set key value w)
  | restore document => stateAfter (Transfer.restore document w)
  | restoreText text => stateAfter (Transfer.restoreText text w)

/-- Whether an operation replaces the data by that of a document. -/
def Restores : Operation → Prop
  | restore _ | restoreText _ => True
  | _ => False

/-- The statements that a document is restored by. -/
def restorations (document : Document) (statement : Statement) : Prop :=
  ∃ insertions, Transfer.refillings document.data Table.all = .ok insertions ∧
    statement ∈ Transfer.clearings ++ insertions

/-- The statements that an operation may run. -/
def Issues : Operation → Statement → Prop
  | createTask _, statement =>
    ∃ task : Task, statement = .insertFields .tasks task.columns .append
  | updateTask id patch, statement =>
    ∃ now, statement = .update .tasks (patch.assignments ++ [("updated_at", .text now)]) (.text id)
  | deleteTask id, statement => statement = .delete .tasks (some (.hasText "id" id)) ∨
    statement = .delete .subtasks (some (.hasText "task_id" id))
  | addSubtask taskId _, statement => ∃ subtask : Subtask, subtask.taskId = taskId ∧
    statement = .insertFields .subtasks subtask.columns .append
  | setSubtaskCompleted id completed, statement => statement =
    .update .subtasks [("completed", .number (.integer (.ofBool completed)))] (.text id)
  | deleteSubtask id, statement => statement = .delete .subtasks (some (.hasText "id" id))
  | createNote _, statement =>
    ∃ note : Note, statement = .insertFields .notes note.columns .append
  | updateNote id patch, statement =>
    ∃ now, statement = .update .notes (patch.assignments ++ [("updated_at", .text now)]) (.text id)
  | deleteNote id, statement => statement = .delete .notes (some (.hasText "id" id))
  | createEvent _, statement =>
    ∃ event : Event, statement = .insertFields .events event.columns .append
  | updateEvent id patch, statement =>
    ∃ now, statement = .update .events (patch.assignments ++ [("updated_at", .text now)]) (.text id)
  | deleteEvent id, statement => statement = .delete .events (some (.hasText "id" id))
  | createHabit _, statement =>
    ∃ habit : Habit, statement = .insertFields .habits habit.columns .append
  | updateHabit id patch, statement => statement = .update .habits patch.assignments (.text id)
  | deleteHabit id, statement => statement = .delete .habits (some (.hasText "id" id)) ∨
    statement = .delete .habitLogs (some (.hasText "habit_id" id))
  | logHabit habitId _ _, statement => ∃ entry : HabitLog, entry.habitId = habitId ∧
    statement = .insertFields .habitLogs entry.columns .replace
  | createRoutine _, statement =>
    ∃ routine : Routine, statement = .insertFields .routines routine.columns .append
  | updateRoutine id patch, statement =>
    statement = .update .routines patch.assignments (.text id)
  | deleteRoutine id, statement => statement = .delete .routines (some (.hasText "id" id))
  | setSetting key value, statement => statement =
    .insertFields .settings [("key", .text key.name), ("value", .text value)] .replace
  | restore document, statement => restorations document statement
  | restoreText text, statement =>
    ∃ document, Transfer.documentOfText text = .ok document ∧ restorations document statement

/-- The tables that an operation may write. -/
def tables : Operation → List Table
  | createTask _ | updateTask .. => [.tasks]
  | deleteTask _ => [.tasks, .subtasks]
  | addSubtask .. | setSubtaskCompleted .. | deleteSubtask _ => [.subtasks]
  | createNote _ | updateNote .. | deleteNote _ => [.notes]
  | createEvent _ | updateEvent .. | deleteEvent _ => [.events]
  | createHabit _ | updateHabit .. => [.habits]
  | deleteHabit _ => [.habits, .habitLogs]
  | logHabit .. => [.habitLogs]
  | createRoutine _ | updateRoutine .. | deleteRoutine _ => [.routines]
  | setSetting .. => [.settings]
  | restore _ | restoreText _ => Table.all

theorem table_of_issues {operation : Operation} {statement : Statement}
    (h : operation.Issues statement) : statement.table ∈ operation.tables := by
  cases operation with
  | createTask | createNote | createEvent | createHabit | createRoutine =>
    obtain ⟨entity, rfl⟩ := h
    exact List.mem_cons_self ..
  | addSubtask | logHabit =>
    obtain ⟨entity, -, rfl⟩ := h
    exact List.mem_cons_self ..
  | updateTask | updateNote | updateEvent =>
    obtain ⟨now, rfl⟩ := h
    exact List.mem_cons_self ..
  | deleteTask | deleteHabit =>
    rcases h with rfl | rfl
    · exact List.mem_cons_self ..
    · exact List.mem_cons_of_mem _ (List.mem_cons_self ..)
  | updateHabit | updateRoutine | setSubtaskCompleted | deleteSubtask | deleteNote | deleteEvent
  | deleteRoutine | setSetting =>
    subst h
    exact List.mem_cons_self ..
  | restore | restoreText => exact Table.mem_all _

theorem reaches_restore (document : Document) (w : Workspace) :
    w.store.Reaches (restorations document) (stateAfter (Transfer.restore document w)).store := by
  unfold Transfer.restore
  cases hinsertions : Transfer.refillings document.data Table.all with
  | error e => exact .refl
  | ok insertions =>
    have hbatch : w.store.Reaches (restorations document)
        (w.store.applyBatch (Transfer.clearings ++ insertions)).2 :=
      Store.Reaches.applyFrom (fun _ hmem => ⟨insertions, hinsertions, hmem⟩) 0 0 .refl
    dsimp only
    generalize w.store.applyBatch _ = outcome at hbatch
    obtain ⟨result, store⟩ := outcome
    cases result <;> exact hbatch

/-- An entry for a day is written once its id is known. -/
theorem reached_log {start : Store} {kind : Statement → Prop} (habitId date : String)
    (completed : Bool) (hkind : ∀ entry : HabitLog, entry.habitId = habitId →
      kind (.insertFields .habitLogs entry.columns .replace)) :
    Keeps (Reached start kind) (Habits.log habitId date completed) := by
  have hentry : ∀ id, Keeps (Reached start kind) (do
      let entry : HabitLog := { id, habitId, date, completed }
      let _ ← run (.insertFields .habitLogs entry.columns .replace)
      return entry : Action DatabaseError HabitLog) :=
    fun id => (reached_run (hkind _ rfl)).bind fun _ => .pure _
  refine (keeps_view _).bind fun found => ?_
  cases found with
  | some existing => exact (Keeps.pure existing.id).bind hentry
  | none => exact reached_newId.bind hentry

/-- An operation ends, well or not, in a store that comes by statements that it may run. -/
theorem reaches_on (operation : Operation) (w : Workspace) :
    w.store.Reaches operation.Issues (operation.on w).store := by
  have hstart : Reached w.store operation.Issues w := .refl
  cases operation with
  | createTask new =>
    exact (reached_timestamp.bind fun _ => reached_newId.bind fun _ =>
      (reached_append ⟨_, rfl⟩).bind fun _ => .pure _) w hstart
  | updateTask id patch | updateNote id patch | updateEvent id patch =>
    exact (reached_timestamp.bind fun now =>
      (reached_assignById ⟨now, rfl⟩).bind fun _ => keeps_view _) w hstart
  | deleteTask id | deleteHabit id =>
    exact ((reached_removeWhere (.inl rfl)).bind fun _ =>
      (reached_removeWhere (.inr rfl)).bind fun _ => .pure _) w hstart
  | addSubtask taskId title =>
    exact (reached_newId.bind fun _ => reached_timestamp.bind fun _ =>
      (reached_append ⟨_, rfl, rfl⟩).bind fun _ => .pure _) w hstart
  | setSubtaskCompleted id completed =>
    refine ((reached_assignById ?_).bind fun _ => .pure _) w hstart
    exact rfl
  | deleteSubtask id | deleteNote id | deleteEvent id | deleteRoutine id =>
    refine ((reached_removeWhere ?_).bind fun _ => .pure _) w hstart
    exact rfl
  | createNote new | createEvent new =>
    exact (reached_timestamp.bind fun _ => reached_newId.bind fun _ =>
      (reached_append ⟨_, rfl⟩).bind fun _ => .pure _) w hstart
  | createHabit new | createRoutine new =>
    exact (reached_newId.bind fun _ => reached_timestamp.bind fun _ =>
      (reached_append ⟨_, rfl⟩).bind fun _ => .pure _) w hstart
  | updateHabit id patch | updateRoutine id patch =>
    refine ((reached_assignById ?_).bind fun _ => keeps_view _) w hstart
    exact rfl
  | logHabit habitId date completed =>
    exact reached_log habitId date completed (fun entry hentry => ⟨entry, hentry, rfl⟩) w hstart
  | setSetting key value =>
    refine ((reached_run ?_).bind fun _ => .pure _) w hstart
    exact rfl
  | restore document => exact reaches_restore document w
  | restoreText text =>
    change w.store.Reaches _ (stateAfter (Transfer.restoreText text w)).store
    unfold Transfer.restoreText
    cases hdocument : Transfer.documentOfText text with
    | error fault => exact .refl
    | ok document =>
      exact (reaches_restore document w).mono fun _ h => ⟨document, hdocument, h⟩

/-- An operation sets columns to plain values only, unless it restores a document. -/
theorem plain_of_issues {operation : Operation} {statement : Statement}
    (h : operation.Issues statement) (hrestores : ¬ operation.Restores) :
    ∀ v ∈ statement.values, v.Plain := by
  have hinsert : ∀ {table : Table} {name : String} {columns : List (String × Json)}
      {conflict : OnConflict}, Columns name columns →
        ∀ v ∈ (Statement.insertFields table columns conflict).values, v.Plain :=
    fun hcolumns => List.forall_mem_map.mpr hcolumns.plain
  have hupdate : ∀ {table : Table} {id : String} {assignments : List (String × Json)},
      Others assignments → ∀ v ∈ (Statement.update table assignments (.text id)).values, v.Plain :=
    fun hothers => List.forall_mem_append.mpr ⟨List.forall_mem_map.mpr hothers.plain,
      List.forall_mem_singleton.mpr (Json.plain_text _)⟩
  have hdelete : ∀ {table : Table} {column text : String},
      ∀ v ∈ (Statement.delete table (some (.hasText column text))).values, v.Plain :=
    List.forall_mem_singleton.mpr (Json.plain_text _)
  cases operation with
  | createTask | createNote | createEvent | createHabit | createRoutine =>
    obtain ⟨entity, rfl⟩ := h
    exact hinsert entity.columns_id
  | addSubtask | logHabit =>
    obtain ⟨entity, -, rfl⟩ := h
    exact hinsert entity.columns_id
  | updateTask id patch | updateNote id patch | updateEvent id patch =>
    obtain ⟨now, rfl⟩ := h
    exact hupdate (patch.others.append (others_updatedAt now))
  | updateHabit id patch | updateRoutine id patch =>
    subst h
    exact hupdate patch.others
  | setSubtaskCompleted =>
    subst h
    exact hupdate ⟨by simp, by simp [Json.plain_ofBool]⟩
  | deleteTask | deleteHabit => rcases h with rfl | rfl <;> exact hdelete
  | deleteSubtask | deleteNote | deleteEvent | deleteRoutine =>
    subst h
    exact hdelete
  | setSetting key value =>
    subst h
    simp only [Statement.insertFields, Statement.values, List.map_cons, List.forall_mem_cons]
    exact ⟨Json.plain_text _, Json.plain_text _, by simp⟩
  | restore | restoreText => exact absurd trivial hrestores

/-- An operation leaves every table readable, unless it restores a document. -/
theorem healthy_on {operation : Operation} (hrestores : ¬ operation.Restores) {w : Workspace}
    (h : w.Healthy) : (operation.on w).Healthy :=
  (reaches_on operation w).healthy (fun _ hissues => plain_of_issues hissues hrestores) h

end Operation
end Planner

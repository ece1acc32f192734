import Planner.Proofs.DueDates
import Planner.Proofs.Notes.Search
import Planner.Proofs.Updates

/-! Entities that are created: each is found by its id as it was returned, and its row stands behind
those that were there before. -/
namespace Planner

open Store Outcome Workspace Json
open Record (IdIs)

variable {α : Type} {table : Table} {id : String} {rows : List Record} {fields : List (String × Json)}
  {w : Workspace} {a : α} {content : Table → List Record}

/-- A creation of an entity with the given columns: it is returned and found then, and a row with the
columns is added to its table. The other rows are read anew, so that they are kept as they were exactly
if their doubles are read back as themselves. No other table changes. -/
def Creates (table : Table) (get? : Store → Except DatabaseError (Option α))
    (columns : List (String × Json)) (a : α) (w : Workspace)
    (outcome : EStateM.Result DatabaseError Workspace α) : Prop :=
  ∃ w', outcome = .ok a w' ∧ get? w'.store = .ok (some a) ∧
    (∀ rows, w.store.tableRows table = .ok rows →
      w'.store.tableRows table = .ok (rows.map rereadFields ++ [Record.ofFields columns]) ∧
      (w'.store.tableRows table = .ok (rows ++ [Record.ofFields columns]) ↔
        ∀ row ∈ rows, rereadFields row = row)) ∧
    ∀ name ≠ table.name, w'.store.text? name = w.store.text? name

variable {get? : Store → Except DatabaseError (Option α)}
  {readRow : Store → Record → Except DatabaseError α}

/-- Adding a row with an id that no other has is a creation when the row is read as the entity. -/
theorem creates_append (hlookup : LooksUp table id get? readRow) (hquota : w.store.quota = none)
    (hrows : w.store.tableRows table = .ok rows) (habsent : ∀ row ∈ rows, ¬ IdIs id row)
    (hcolumns : Columns id fields)
    (hread : ∀ written, readRow (w.store.written table written) (Record.ofFields fields) = .ok a) :
    Creates table get? fields a w ((do
      append table fields
      return a : Action DatabaseError α) { w with issued := w.issued + 1 }) := by
  have hplain := Record.Plain.ofFields hcolumns.plain
  have hid : IdIs id (Record.ofFields fields) := by
    obtain ⟨others, rfl, hothers⟩ := hcolumns
    exact Record.get?_ofFields_head hothers.names
  have hstorable : ∀ row ∈ rows ++ [Record.ofFields fields], Storable row :=
    List.forall_mem_append.mpr
      ⟨storable_of_tableRows hrows, List.forall_mem_singleton.mpr hplain.storable⟩
  have hrows' : (w.store.written table (rows ++ [Record.ofFields fields])).tableRows table =
      .ok (rows.map rereadFields ++ Record.ofFields fields :: []) := by
    rw [tableRows_written hstorable, List.map_append, List.map_singleton, hplain.reread_eq]
  refine ⟨⟨w.store.written table (rows ++ [Record.ofFields fields]), w.now, w.issued + 1⟩, ?_,
    hlookup.present hrows' (List.forall_mem_map.mpr fun row hrow => ?_) hid (hread _),
    fun rows₁ hrows₁ => ?_, fun _ => text?_written_ne⟩
  · change EStateM.bind (EStateM.bind (change _) _) _ _ = _
    simp only [EStateM.bind, change, apply_append hquota hrows]
    rfl
  · exact mt Record.idIs_reread.mp (habsent row hrow)
  · cases hrows.symm.trans hrows₁
    refine ⟨hrows', ?_⟩
    rw [← map_reread_eq_self_iff]
    change (w.store.written table _).tableRows table = _ ↔ _
    rw [hrows', Except.ok.injEq, List.append_left_inj]

/-! ### The entities -/

/-- The event that is created in a workspace. -/
def Events.created (new : NewEvent) (w : Workspace) : Event where
  id := idOfNumber (w.issued + 1)
  title := new.title
  description := new.description
  startTime := new.startTime
  endTime := new.endTime
  location := new.location
  color := new.color
  type := new.type
  createdAt := w.now.toText
  updatedAt := w.now.toText

/-- The habit that is created in a workspace. -/
def Habits.created (new : NewHabit) (w : Workspace) : Habit where
  id := idOfNumber (w.issued + 1)
  name := new.name
  frequency := new.frequency
  color := new.color
  createdAt := w.now.toText

/-- The routine that is created in a workspace. -/
def Routines.created (new : NewRoutine) (w : Workspace) : Routine where
  id := idOfNumber (w.issued + 1)
  title := new.title
  startTime := new.startTime
  endTime := new.endTime
  days := new.days
  color := new.color
  category := new.category
  createdAt := w.now.toText

theorem creates_entity (h : w.store.Holds content) {read : Json → Except Fault α}
    (habsent : ∀ row ∈ content table, ¬ IdIs id row) (hcolumns : Columns id fields)
    (hread : read (.object (Record.ofFields fields)) = .ok a) :
    Creates table (·.entity? read (.byId table id)) fields a w ((do
      append table fields
      return a : Action DatabaseError α) { w with issued := w.issued + 1 }) :=
  creates_append (looksUp_entity? table id read) h.takesWrites (h.tableRows table) habsent hcolumns
    fun _ => mapError_eq_ok.mpr hread

theorem creates_habit (h : w.store.Holds content)
    (habsent : ∀ row ∈ content .habits, ¬ IdIs (idOfNumber (w.issued + 1)) row) (new : NewHabit) :
    Creates .habits (Habits.get? (Habits.created new w).id) (Habits.created new w).columns
      (Habits.created new w) w (Habits.create new w) :=
  creates_entity h habsent (Habits.created new w).columns_id (Habits.created new w).ofJson_columns

/-- No subtasks are found for a task that none belong to. -/
theorem subtasks_none (h : w.store.Holds content)
    (hnone : ∀ row ∈ content .subtasks, row.get? "task_id" ≠ some (.text id)) :
    Tasks.subtasks id w.store = .ok [] := by
  unfold Tasks.subtasks entities
  rw [h.query, Select.evaluate_filtered rfl rfl]
  have hempty : ((Select.everything .subtasks).evaluate (content .subtasks)).filter
      ((Predicate.hasText "task_id" id).holds ·) = [] :=
    List.filter_eq_nil_iff.mpr fun row hrow =>
      mt Predicate.holds_hasText.mp (hnone row (Select.mem_of_mem_evaluate rfl hrow))
  exact congrArg (List.mapM _ ·) hempty

theorem hydrate_created (h : w.store.Holds content)
    (hnone : ∀ row ∈ content .subtasks,
      row.get? "task_id" ≠ some (.text (idOfNumber (w.issued + 1))))
    (new : NewTask) (written : List Record) :
    Tasks.hydrate (w.store.written .tasks written) (Record.ofFields (Tasks.created new w).columns) =
      .ok (Tasks.created new w) := by
  refine bind_eq_ok.mpr ⟨_, mapError_eq_ok.mpr (Task.ofJson_columns rfl),
    bind_eq_ok.mpr ⟨[], ?_, rfl⟩⟩
  rw [subtasks_written (by decide)]
  exact subtasks_none h hnone

/-- On a store that takes every write and where no row has the next id, nor a subtask belongs to it,
each of the five creations returns what is found by that id then. -/
theorem creates_new (h : w.store.Holds content)
    (habsent : ∀ table, ∀ row ∈ content table, ¬ IdIs (idOfNumber (w.issued + 1)) row)
    (hnone : ∀ row ∈ content .subtasks,
      row.get? "task_id" ≠ some (.text (idOfNumber (w.issued + 1)))) :
    (∀ new : NewTask, Creates .tasks (Tasks.get? (Tasks.created new w).id)
      (Tasks.created new w).columns (Tasks.created new w) w (Tasks.create new w)) ∧
    (∀ new : NewNote, new.folder ≠ "" → Creates .notes (Notes.get? (Notes.created new w).id)
      (Notes.created new w).columns (Notes.created new w) w (Notes.create new w)) ∧
    (∀ new : NewEvent, Creates .events (Events.get? (Events.created new w).id)
      (Events.created new w).columns (Events.created new w) w (Events.create new w)) ∧
    (∀ new : NewHabit, Creates .habits (Habits.get? (Habits.created new w).id)
      (Habits.created new w).columns (Habits.created new w) w (Habits.create new w)) ∧
    (∀ new : NewRoutine, Creates .routines (Routines.get? (Routines.created new w).id)
      (Routines.created new w).columns (Routines.created new w) w (Routines.create new w)) := by
  refine ⟨fun new => ?_, fun new hfolder => ?_, fun new => ?_, fun new => ?_, fun new => ?_⟩
  · exact creates_append (looksUp_task _) h.takesWrites (h.tableRows .tasks) (habsent .tasks)
      (Tasks.created new w).columns_id (hydrate_created h hnone new)
  · exact creates_entity h (habsent .notes) (Notes.created new w).columns_id
      (Note.ofJson_columns hfolder)
  · exact creates_entity h (habsent .events) (Events.created new w).columns_id
      (Events.created new w).ofJson_columns
  · exact creates_habit h (habsent .habits) new
  · exact creates_entity h (habsent .routines) (Routines.created new w).columns_id
      (Routines.created new w).ofJson_columns

/-- A note with a quotation mark in its tag. -/
def diary : NewNote := { title := "Diary", tags := ["a\"b"] }

/-- A workspace with one habit. -/
def withSwimming : Workspace :=
  ⟨Store.empty.written .habits [Record.ofFields swimming.columns], ⟨0⟩, 0⟩

theorem creates_new_diary : ∃ w',
    Notes.create diary withSwimming = .ok (Notes.created diary withSwimming) w' ∧
    Notes.get? (idOfNumber 1) w'.store = .ok (some (Notes.created diary withSwimming)) ∧
    w'.store.tableRows .notes = .ok [Record.ofFields (Notes.created diary withSwimming).columns] := by
  have hholds : withSwimming.store.Holds _ :=
    holds_empty.written_plain (List.forall_mem_singleton.mpr (.ofFields swimming.columns_id.plain))
  have habsent : ∀ table, ∀ row ∈ Function.update (fun _ => []) Table.habits
      [Record.ofFields swimming.columns] table, ¬ IdIs (idOfNumber 1) row := by
    intro table
    by_cases htable : table = .habits
    · subst htable
      rw [Function.update_self, List.forall_mem_singleton]
      decide
    · simp [Function.update_of_ne htable]
  obtain ⟨-, hnotes, -⟩ := creates_new hholds habsent (by simp [Function.update_of_ne])
  obtain ⟨w', hcreate, hget, hrows, -⟩ := hnotes diary (by decide)
  exact ⟨w', hcreate, hget, (hrows [] (hholds.tableRows .notes)).1⟩

/-- Creating another habit changes the column that a stored one has of its own. -/
theorem not_kept_restlessHabit : ∃ old a w',
    (Store.empty.written .habits [restlessHabit]).tableRows .habits = .ok [old] ∧
    ¬ IdIs (idOfNumber 1) old ∧
    Habits.create { name := "Dive" } ⟨Store.empty.written .habits [restlessHabit], ⟨0⟩, 0⟩ =
      .ok a w' ∧
    ∀ added, w'.store.tableRows .habits ≠ .ok ([old] ++ [added]) := by
  have hholds : (Store.empty.written .habits [restlessHabit]).Holds _ :=
    holds_empty.written storable_restlessHabit
  have hrows : (Store.empty.written .habits [restlessHabit]).tableRows .habits =
      .ok [rereadFields restlessHabit] := tableRows_written storable_restlessHabit
  have habsent : ¬ IdIs (idOfNumber 1) (rereadFields restlessHabit) :=
    mt Record.idIs_reread.mp (by decide)
  have hchanged : rereadFields (rereadFields restlessHabit) ≠ rereadFields restlessHabit := by
    decide +kernel
  obtain ⟨w', hcreate, -, hwritten, -⟩ := creates_habit
    (w := ⟨Store.empty.written .habits [restlessHabit], ⟨0⟩, 0⟩) hholds
    (by rwa [Function.update_self, List.map_singleton, List.forall_mem_singleton]) { name := "Dive" }
  refine ⟨_, _, w', hrows, habsent, hcreate, fun added hkept => hchanged ?_⟩
  rw [(hwritten _ hrows).1, Except.ok.injEq] at hkept
  exact (List.cons.inj hkept).1

end Planner

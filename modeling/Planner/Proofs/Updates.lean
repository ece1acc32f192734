import Planner.Proofs.Entity.Patches
import Planner.Proofs.Legible

/-! The entity with an id, looked up and changed by a patch: the first row with the id is read and
written, and of its columns only those that the patch sets. -/
namespace Planner

open Store Outcome Workspace Json

variable {α : Type} {table : Table} {id : String} {row old : Record} {rows before after : List Record}
  {fields : List (String × Json)} {store : Store} {w : Workspace}

/-! ### Rows with an id -/

namespace Record

/-- Whether a row has a text as its id. -/
def IdIs (id : String) (row : Record) : Prop := row.get? "id" = some (.text id)

instance (id : String) : DecidablePred (IdIs id) := fun row =>
  inferInstanceAs (Decidable (row.get? "id" = some (.text id)))

theorem idIs_reread : IdIs id (rereadFields row) ↔ IdIs id row := by
  simp only [IdIs, get?_rereadFields, Option.map_eq_some_iff, reread_eq_text_iff, exists_eq_right]

theorem idIs_changed (h : lastOf? "id" fields = none) :
    IdIs id (row.changed fields) ↔ IdIs id row := by
  rw [changed, idIs_reread, IdIs, get?_foldl_set_eq, h, Option.none_or, IdIs]

end Record

open Record (IdIs)

theorem agrees_id : agrees [("id", .text id)] row = true ↔ IdIs id row := by
  simp [agrees_iff, IdIs, same_text_iff]

theorem assignFirst_absent (h : ∀ row ∈ rows, ¬ IdIs id row) :
    assignFirst fields (.text id) rows = none := by
  induction rows with
  | nil => rfl
  | cons first rest ih =>
    obtain ⟨hfirst, hrest⟩ := List.forall_mem_cons.mp h
    rw [assignFirst, if_neg (mt agrees_id.mp hfirst), ih hrest]
    rfl

theorem assignFirst_present (hbefore : ∀ row ∈ before, ¬ IdIs id row) (hold : IdIs id old) :
    assignFirst fields (.text id) (before ++ old :: after) = some (before ++
      fields.foldl (fun row field => Record.set field.1 field.2 row) old :: after) := by
  induction before with
  | nil => rw [List.nil_append, assignFirst, if_pos (agrees_id.mpr hold)]; rfl
  | cons first rest ih =>
    obtain ⟨hfirst, hrest⟩ := List.forall_mem_cons.mp hbefore
    rw [List.cons_append, assignFirst, if_neg (mt agrees_id.mp hfirst), ih hrest]
    rfl

/-! ### Lookups -/

/-- Whether a lookup reads the first row of a table that has an id. -/
def LooksUp (table : Table) (id : String) (get? : Store → Except DatabaseError (Option α))
    (readRow : Store → Record → Except DatabaseError α) : Prop :=
  ∀ store rows, store.tableRows table = .ok rows →
    get? store = match rows.find? (IdIs id ·) with
      | some row => (readRow store row).map some
      | none => .ok none

namespace LooksUp

variable {get? : Store → Except DatabaseError (Option α)}
  {readRow : Store → Record → Except DatabaseError α}

theorem absent (h : LooksUp table id get? readRow) (hrows : store.tableRows table = .ok rows)
    (hnone : ∀ row ∈ rows, ¬ IdIs id row) : get? store = .ok none := by
  rw [h store rows hrows, List.find?_eq_none.mpr fun row hrow => by simpa using hnone row hrow]

theorem present (h : LooksUp table id get? readRow)
    (hrows : store.tableRows table = .ok (before ++ old :: after))
    (hbefore : ∀ row ∈ before, ¬ IdIs id row) (hold : IdIs id old) {a : α}
    (hread : readRow store old = .ok a) : get? store = .ok (some a) := by
  have hnone : before.find? (IdIs id ·) = none :=
    List.find?_eq_none.mpr fun row hrow => by simpa using hbefore row hrow
  rw [h store _ hrows, List.find?_append, hnone, Option.none_or]
  simp only [List.find?_cons, decide_eq_true hold, hread]
  rfl

end LooksUp

theorem find?_hasText (rows : List Record) :
    rows.find? ((Predicate.hasText "id" id).holds ·) = rows.find? (IdIs id ·) := by
  congr 1
  funext row
  rw [Bool.eq_iff_iff, Predicate.holds_hasText, decide_eq_true_iff, IdIs]

theorem looksUp_entity? (table : Table) (id : String) (read : Json → Except Fault α) :
    LooksUp table id (·.entity? read (.byId table id)) fun _ => decodeRow table read := by
  intro store rows hrows
  rw [← find?_hasText]
  exact entity?_of_rows (.byId table id) rfl rfl rfl hrows

theorem looksUp_task (id : String) : LooksUp .tasks id (Tasks.get? id) Tasks.hydrate := by
  intro store rows hrows
  have hone : store.queryOne (.byId .tasks id) = .ok (rows.find? (IdIs id ·)) := by
    rw [← find?_hasText]
    exact queryOne_of_rows (.byId .tasks id) rfl rfl rfl hrows
  unfold Tasks.get?
  rw [hone]
  cases rows.find? (IdIs id ·) with
  | none => rfl
  | some row => cases Tasks.hydrate store row <;> rfl

/-! ### Updates -/

/-- An update of the entity with an id: nothing is found and nothing changes if no row has the id.
Otherwise the entity is changed that was read from the first row with the id, and read so from then on.
That row gets the columns that are set and keeps all others, in its place among the other rows. If
anything is set the rows are read anew, so that they are kept as they were exactly if their doubles are
read back as themselves. No other table changes. -/
structure Updates (table : Table) (id : String) (get? : Store → Except DatabaseError (Option α))
    (set? : String → Option Json) (change : α → α) (w : Workspace)
    (outcome : EStateM.Result DatabaseError Workspace (Option α)) : Prop where
  absent : ∀ rows, w.store.tableRows table = .ok rows → (∀ row ∈ rows, ¬ IdIs id row) →
    get? w.store = .ok none ∧ outcome = .ok none w
  present : ∀ before old after, w.store.tableRows table = .ok (before ++ old :: after) →
    (∀ row ∈ before, ¬ IdIs id row) → IdIs id old →
    ∃ a new w', get? w.store = .ok (some a) ∧ outcome = .ok (some (change a)) w' ∧
      get? w'.store = .ok (some (change a)) ∧
      (∀ column, new.get? column = (set? column).or (old.get? column)) ∧
      ((∀ column, set? column = none) → w' = w) ∧
      ((∃ column, set? column ≠ none) →
        w'.store.tableRows table = .ok ((before ++ new :: after).map rereadFields)) ∧
      (w'.store.tableRows table = .ok (before ++ new :: after) ↔
        (∀ column, set? column = none) ∨ ∀ row ∈ before ++ new :: after, rereadFields row = row) ∧
      ∀ name ≠ table.name, w'.store.text? name = w.store.text? name

theorem Record.lastOf?_eq_none_iff : (∀ name, lastOf? name fields = none) ↔ fields = [] := by
  constructor
  · intro h
    cases fields using List.reverseRecOn with
    | nil => rfl
    | append_singleton fields field =>
      have hlast := h field.1
      simp [lastOf?] at hlast
  · rintro rfl
    exact lastOf?_nil

/-- No column that is set beside the id is the id. -/
theorem Others.lastOf?_id (h : Others fields) : Record.lastOf? "id" fields = none := by
  refine Option.map_eq_none_iff.mpr (List.find?_eq_none.mpr fun field hf => ?_)
  simpa using h.names field (List.mem_reverse.mp hf)

theorem run_update (hquota : w.store.quota = none) (hrows : w.store.tableRows table = .ok rows) :
    run (.update table fields (.text id)) w = match assignFirst fields (.text id) rows with
      | some rows' => .ok 1 { w with store := w.store.written table rows' }
      | none => .ok 0 w := by
  have happly : w.store.apply (.update table fields (.text id)) =
      match assignFirst fields (.text id) rows with
      | some rows' => .ok (1, w.store.written table rows')
      | none => .ok (0, w.store) := by
    simp only [apply, Store.update, hrows, bind, Except.bind]
    cases assignFirst fields (.text id) rows with
    | none => rfl
    | some rows' =>
      dsimp only
      rw [setTableRows_healthy hquota]
      rfl
  simp only [run, change, happly]
  cases assignFirst fields (.text id) rows <;> rfl

theorem assignById_absent (hquota : w.store.quota = none) (hrows : w.store.tableRows table = .ok rows)
    (hnone : ∀ row ∈ rows, ¬ IdIs id row) : assignById table id fields w = .ok 0 w := by
  unfold assignById
  split_ifs
  · rfl
  · rw [run_update hquota hrows, assignFirst_absent hnone]

theorem assignById_present (hquota : w.store.quota = none)
    (hrows : w.store.tableRows table = .ok (before ++ old :: after))
    (hbefore : ∀ row ∈ before, ¬ IdIs id row) (hold : IdIs id old) (hfields : fields ≠ []) :
    assignById table id fields w = .ok 1 { w with store := w.store.written table (before ++
      fields.foldl (fun row field => Record.set field.1 field.2 row) old :: after) } := by
  rw [assignById, if_neg (by simpa using hfields), run_update hquota hrows,
    assignFirst_present hbefore hold]

theorem storable_assigned (hrows : store.tableRows table = .ok (before ++ old :: after))
    (hfields : Others fields) : ∀ row ∈ before ++
      fields.foldl (fun row field => Record.set field.1 field.2 row) old :: after, Storable row := by
  have hrow := storable_of_tableRows hrows
  simp only [List.forall_mem_append, List.forall_mem_cons] at hrow ⊢
  obtain ⟨hbefore, hold, hafter⟩ := hrow
  exact ⟨hbefore, hold.foldl_set fun field hf => (hfields.plain field hf).fits _, hafter⟩

variable {get? : Store → Except DatabaseError (Option α)}
  {readRow : Store → Record → Except DatabaseError α} {set? : String → Option Json} {change : α → α}

/-- What is found once the row has its columns set and is read as an entity then. -/
theorem LooksUp.assigned (hlookup : LooksUp table id get? readRow)
    (hrows : store.tableRows table = .ok (before ++ old :: after))
    (hbefore : ∀ row ∈ before, ¬ IdIs id row) (hold : IdIs id old) (hfields : Others fields) {a : α}
    (hread : ∀ written, readRow (store.written table written) (old.changed fields) = .ok a) :
    get? (store.written table (before ++
      fields.foldl (fun row field => Record.set field.1 field.2 row) old :: after)) =
        .ok (some a) := by
  have hwritten : (store.written table _).tableRows table = _ :=
    tableRows_written (storable_assigned hrows hfields)
  rw [List.map_append, List.map_cons] at hwritten
  refine hlookup.present hwritten (List.forall_mem_map.mpr fun row hrow => ?_)
    ((Record.idIs_changed hfields.lastOf?_id).mpr hold) (hread _)
  exact mt Record.idIs_reread.mp (hbefore row hrow)

/-- Columns are set by an id, and what the lookup reads is given. -/
def changeById (table : Table) (id : String) (fields : List (String × Json))
    (get? : Store → Except DatabaseError (Option α)) : Action DatabaseError (Option α) := do
  let _ ← assignById table id fields
  view get?

theorem changeById_eq {count : Nat} {w' : Workspace} {found : Option α}
    (hassign : assignById table id fields w = .ok count w') (hfound : get? w'.store = .ok found) :
    changeById table id fields get? w = .ok found w' := by
  change EStateM.bind (assignById table id fields) _ w = _
  simp only [EStateM.bind, hassign, view, hfound]

/-- Setting columns by an id is an update when the row is read as the changed entity then. -/
theorem updates_changeById (hlookup : LooksUp table id get? readRow) (hquota : w.store.quota = none)
    (hset : ∀ column, Record.lastOf? column fields = set? column) (hfields : Others fields)
    (hread : ∀ rows, w.store.tableRows table = .ok rows → ∀ row ∈ rows, ∃ a,
      readRow w.store row = .ok a ∧
      ∀ written, readRow (w.store.written table written) (row.changed fields) = .ok (change a))
    (hnothing : fields = [] → ∀ a, change a = a) :
    Updates table id get? set? change w (changeById table id fields get? w) where
  absent rows hrows hnone := by
    have hfound := hlookup.absent hrows hnone
    exact ⟨hfound, changeById_eq (assignById_absent hquota hrows hnone) hfound⟩
  present before old after hrows hbefore hold := by
    obtain ⟨a, ha, hchanged⟩ := hread _ hrows old (by simp)
    have hfound := hlookup.present hrows hbefore hold ha
    have hnone : (∀ column, set? column = none) ↔ fields = [] := by
      simp only [← hset, Record.lastOf?_eq_none_iff]
    -- without anything to set no row is written, and so none is read anew
    by_cases hempty : fields = []
    · have hassign : assignById table id fields w = .ok 0 w := by rw [hempty]; rfl
      refine ⟨a, old, w, hfound, ?_, ?_, fun column => ?_, fun _ => rfl, fun hsome => ?_, ?_,
        fun _ _ => rfl⟩
      · rw [hnothing hempty, changeById_eq hassign hfound]
      · rw [hnothing hempty, hfound]
      · rw [hnone.mpr hempty, Option.none_or]
      · obtain ⟨column, hcolumn⟩ := hsome
        exact absurd (hnone.mpr hempty column) hcolumn
      · exact iff_of_true hrows (.inl (hnone.mpr hempty))
    · have hassign := assignById_present hquota hrows hbefore hold hempty
      have hwritten : (w.store.written table _).tableRows table = _ :=
        tableRows_written (storable_assigned hrows hfields)
      have hafter := hlookup.assigned hrows hbefore hold hfields hchanged
      refine ⟨a, _, _, hfound, changeById_eq hassign hafter, hafter, fun column => ?_,
        fun hnothing => absurd (hnone.mp hnothing) hempty, fun _ => hwritten, ?_,
        fun _ => text?_written_ne⟩
      · rw [Record.get?_foldl_set_eq, hset]
      · rw [← map_reread_eq_self_iff, hnone, or_iff_right hempty]
        change (w.store.written table _).tableRows table = _ ↔ _
        rw [hwritten, Except.ok.injEq]

/-! ### The entities -/

variable {content : Table → List Record}

/-- The subtasks of a task are those that it has before other tables are written. -/
theorem subtasks_written (hne : table ≠ .subtasks) (taskId : String) (rows : List Record)
    (store : Store) :
    Tasks.subtasks taskId (store.written table rows) = Tasks.subtasks taskId store := by
  have hrows : (store.written table rows).tableRows .subtasks = store.tableRows .subtasks :=
    congrArg (·.mapError DatabaseError.store) (rows_written_ne hne.symm)
  have hquery : (store.written table rows).query ((Select.everything .subtasks).filtered
      (.hasText "task_id" taskId)) = store.query _ := congrArg (· >>= _) hrows
  unfold Tasks.subtasks entities
  rw [hquery]

theorem hydrate_changed (h : store.Holds content)
    (hsubtasks : ∀ row ∈ content .subtasks, Succeeds (Subtask.ofJson (.object row))) {row : Record}
    (hrow : Succeeds (Task.ofJson (.object row))) (patch : TaskPatch) (now : String) :
    ∃ task, Tasks.hydrate store row = .ok task ∧ ∀ written,
      Tasks.hydrate (store.written .tasks written)
        (row.changed (patch.assignments ++ [("updated_at", .text now)])) =
          .ok (patch.applied now task) := by
  obtain ⟨task, htask⟩ := hrow
  obtain ⟨_, hchanged⟩ := Task.ofJson_changed htask patch now
  obtain ⟨subtasks, hfound⟩ : Succeeds (Tasks.subtasks task.id store) := h.entities rfl hsubtasks
  refine ⟨{ task with subtasks }, ?_, fun written => ?_⟩
  · exact bind_eq_ok.mpr ⟨task, mapError_eq_ok.mpr htask, bind_eq_ok.mpr ⟨subtasks, hfound, rfl⟩⟩
  · refine bind_eq_ok.mpr ⟨_, mapError_eq_ok.mpr hchanged, bind_eq_ok.mpr ⟨subtasks, ?_, rfl⟩⟩
    rw [subtasks_written (by decide)]
    exact hfound

theorem updates_entity? (h : w.store.Holds content) (id : String) {read : Json → Except Fault α}
    (hread : ∀ row ∈ content table, Succeeds (read (.object row)))
    (hset : ∀ column, Record.lastOf? column fields = set? column) (hfields : Others fields)
    (hchanged : ∀ (row : Record) a, read (.object row) = .ok a →
      read (.object (row.changed fields)) = .ok (change a))
    (hnothing : fields = [] → ∀ a, change a = a) :
    Updates table id (·.entity? read (.byId table id)) set? change w
      (changeById table id fields (·.entity? read (.byId table id)) w) := by
  refine updates_changeById (looksUp_entity? table id read) h.takesWrites hset hfields
    (fun rows hrows row hrow => ?_) hnothing
  cases (h.tableRows table).symm.trans hrows
  obtain ⟨a, ha⟩ := hread row hrow
  exact ⟨a, mapError_eq_ok.mpr ha, fun _ => mapError_eq_ok.mpr (hchanged row a ha)⟩

/-- On a store that takes every write, where the rows of the table are read as entities and those of
the subtasks too, each of the five updates by an id returns, and reads back, what was found before with
what the patch names, and for tasks, notes and events the moment of the change. -/
theorem updates_byId (h : w.store.Holds content) (id : String) :
    ((∀ row ∈ content .tasks, Succeeds (Task.ofJson (.object row))) →
      (∀ row ∈ content .subtasks, Succeeds (Subtask.ofJson (.object row))) →
      ∀ patch : TaskPatch, Updates .tasks id (Tasks.get? id) (patch.set? w.now.toText)
        (patch.applied w.now.toText) w (Tasks.update id patch w)) ∧
    ((∀ row ∈ content .notes, Succeeds (Note.ofJson (.object row))) →
      ∀ patch : NotePatch, (∀ folder ∈ patch.folder, folder ≠ "") →
        Updates .notes id (Notes.get? id) (patch.set? w.now.toText) (patch.applied w.now.toText) w
          (Notes.update id patch w)) ∧
    ((∀ row ∈ content .events, Succeeds (Event.ofJson (.object row))) →
      ∀ patch : EventPatch, Updates .events id (Events.get? id) (patch.set? w.now.toText)
        (patch.applied w.now.toText) w (Events.update id patch w)) ∧
    ((∀ row ∈ content .habits, Succeeds (Habit.ofJson (.object row))) →
      ∀ patch : HabitPatch, Updates .habits id (Habits.get? id) patch.set? patch.applied w
        (Habits.update id patch w)) ∧
    ((∀ row ∈ content .routines, Succeeds (Routine.ofJson (.object row))) →
      ∀ patch : RoutinePatch, Updates .routines id (Routines.get? id) patch.set? patch.applied w
        (Routines.update id patch w)) := by
  refine ⟨fun htasks hsubtasks patch => ?_, fun hnotes patch hfolder => ?_, fun hevents patch => ?_,
    fun hhabits patch => ?_, fun hroutines patch => ?_⟩
  · refine updates_changeById (looksUp_task id) h.takesWrites
      (patch.lastOf?_assignments w.now.toText) (patch.others.append (others_updatedAt _))
      (fun rows hrows row hrow => ?_) (by simp)
    cases (h.tableRows .tasks).symm.trans hrows
    exact hydrate_changed h hsubtasks (htasks row hrow) patch w.now.toText
  · exact updates_entity? h id hnotes (patch.lastOf?_assignments w.now.toText)
      (patch.others.append (others_updatedAt _))
      (fun row note hnote => Note.ofJson_changed hnote hfolder w.now.toText) (by simp)
  · exact updates_entity? h id hevents (patch.lastOf?_assignments w.now.toText)
      (patch.others.append (others_updatedAt _))
      (fun row event hevent => Event.ofJson_changed hevent patch w.now.toText) (by simp)
  · exact updates_entity? h id hhabits patch.lastOf?_assignments patch.others
      (fun row habit hhabit => Habit.ofJson_changed hhabit patch) HabitPatch.applied_of_nil
  · exact updates_entity? h id hroutines patch.lastOf?_assignments patch.others
      (fun row routine hroutine => Routine.ofJson_changed hroutine patch) RoutinePatch.applied_of_nil

/-- A habit that is kept daily. -/
def swimming : Habit := ⟨"h", "Swim", .daily, defaultColor, "2024-05-14T09:00:00.000Z"⟩

theorem updates_byId_swimming : ∃ w', Habits.update "h" { name := some "Dive" }
      ⟨Store.empty.written .habits [Record.ofFields swimming.columns], ⟨0⟩, 1⟩ =
        .ok (some { swimming with name := "Dive" }) w' ∧
      Habits.get? "h" w'.store = .ok (some { swimming with name := "Dive" }) := by
  have hplain : ∀ row ∈ [Record.ofFields swimming.columns], row.Plain :=
    List.forall_mem_singleton.mpr (.ofFields swimming.columns_id.plain)
  obtain ⟨-, -, -, hhabits, -⟩ := updates_byId
    (w := ⟨Store.empty.written .habits [Record.ofFields swimming.columns], ⟨0⟩, 1⟩)
    (holds_empty.written_plain hplain) "h"
  rw [Function.update_self, List.forall_mem_singleton] at hhabits
  have hrows : (Store.empty.written .habits [Record.ofFields swimming.columns]).tableRows .habits =
      .ok ([] ++ Record.ofFields swimming.columns :: []) := tableRows_plain hplain
  obtain ⟨a, -, w', hbefore, hrun, hafter, -⟩ :=
    (hhabits ⟨swimming, swimming.ofJson_columns⟩ { name := some "Dive" }).present [] _ [] hrows
      (by simp) (by decide)
  have hfound : Habits.get? "h" _ = .ok (some swimming) :=
    (looksUp_entity? .habits "h" Habit.ofJson).present hrows (by simp) (by decide)
      (mapError_eq_ok.mpr swimming.ofJson_columns)
  cases hfound.symm.trans hbefore
  exact ⟨w', hrun, hafter⟩

/-- A habit with a column of its own. -/
def restlessHabit : Record :=
  [("color", .text defaultColor), ("created_at", .text "2024-05-14T09:00:00.000Z"),
    ("effort", .number (.double restless)), ("frequency", .text "daily"), ("id", .text "h"),
    ("name", .text "Swim")]

theorem storable_restlessHabit : ∀ row ∈ [restlessHabit], Storable row :=
  List.forall_mem_singleton.mpr
    ⟨by unfold Record.Ordered; decide, by simp [restlessHabit, Fits, Sorted, depth]⟩

/-- Giving the habit another name changes that column. -/
theorem effort_not_kept : ∃ old a w' new,
    (Store.empty.written .habits [restlessHabit]).tableRows .habits = .ok [old] ∧
    Succeeds (Habit.ofJson (.object old)) ∧
    Habits.update "h" { name := some "Dive" } ⟨Store.empty.written .habits [restlessHabit], ⟨0⟩, 1⟩ =
      .ok (some a) w' ∧
    w'.store.tableRows .habits = .ok [new] ∧ new.get? "effort" ≠ old.get? "effort" := by
  have hrows : (Store.empty.written .habits [restlessHabit]).tableRows .habits =
      .ok ([] ++ rereadFields restlessHabit :: []) := tableRows_written storable_restlessHabit
  have hread : ∀ row ∈ Function.update (fun _ => []) Table.habits
      ([restlessHabit].map rereadFields) .habits, Succeeds (Habit.ofJson (.object row)) := by
    rw [Function.update_self, List.map_singleton, List.forall_mem_singleton]
    exact ⟨⟨"h", "Swim", .daily, defaultColor, "2024-05-14T09:00:00.000Z"⟩, rfl⟩
  have hholds : (Store.empty.written .habits [restlessHabit]).Holds _ :=
    holds_empty.written storable_restlessHabit
  let dive : HabitPatch := { name := some "Dive" }
  obtain ⟨a, new, w', -, hrun, -, hnew, -, hwritten, -⟩ :=
    (updates_entity? (w := ⟨Store.empty.written .habits [restlessHabit], ⟨0⟩, 1⟩) hholds "h" hread
      dive.lastOf?_assignments dive.others (fun row habit hhabit => Habit.ofJson_changed hhabit dive)
      HabitPatch.applied_of_nil).present [] _ [] hrows (by simp) (by decide)
  have heffort : new.get? "effort" = some (.number (.double restless.reread)) := hnew "effort"
  refine ⟨_, _, w', _, hrows, hread _ ?_, hrun, hwritten ⟨"name", ?_⟩, ?_⟩
  · rw [Function.update_self]
    exact List.mem_singleton.mpr rfl
  · exact Option.some_ne_none _
  · have hbefore : (rereadFields restlessHabit).get? "effort" =
        some (.number (.double restless.reread)) := Record.get?_rereadFields _ _
    rw [Record.get?_rereadFields, heffort, hbefore]
    intro hsame
    obtain ⟨hne, hback⟩ := reread_restless
    have hsame := Number.double.inj (Json.number.inj (Option.some.inj hsame))
    exact hne (hsame.symm.trans hback)

end Planner

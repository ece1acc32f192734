import Planner.Proofs.Contents
import Planner.Proofs.Listing
import Planner.Proofs.Unreadable

/-! Rows that refer to rows of other tables: the row that is referred to is there in all states of a
run of commands, as long as nothing is restored or queried. -/
namespace Planner

open Store Outcome
open CommandLine (fresh storeAfter)

/-- A column that holds the id of a row of another table. -/
structure Reference where
  column : String
  parent : Table

/-- The reference that each row of a table has. -/
def Table.reference? : Table → Option Reference
  | .subtasks => some ⟨"task_id", .tasks⟩
  | .habitLogs => some ⟨"habit_id", .habits⟩
  | _ => none

/-- Whether rows refer to those of a table. -/
def Table.IsReferred (parent : Table) : Prop :=
  ∃ child : Table, ∃ reference ∈ child.reference?, reference.parent = parent

/-- Whether a table has a row with an id. -/
def HasId (table : Table) (id : String) (content : Table → List Record) : Prop :=
  ∃ row ∈ content table, row.get? "id" = some (.text id)

/-- Whether the row is there that a row refers to, if it refers to one. -/
def Refers (content : Table → List Record) (table : Table) (row : Record) : Prop :=
  ∀ reference ∈ table.reference?, ∃ id,
    row.get? reference.column = some (.text id) ∧ HasId reference.parent id content

/-- Whether all rows are there that others refer to. -/
def Met (content : Table → List Record) : Prop :=
  ∀ table, ∀ row ∈ content table, Refers content table row

/-- Whether each row of a table refers to a row of another that is stored. -/
def Store.Meets (child : Table) (reference : Reference) (store : Store) : Prop :=
  ∃ rows parents, store.tableRows child = .ok rows ∧
    store.tableRows reference.parent = .ok parents ∧
      ∀ row ∈ rows, ∃ id, row.get? reference.column = some (.text id) ∧
        ∃ parent ∈ parents, parent.get? "id" = some (.text id)

variable {store : Store} {content : Table → List Record} {w : Workspace} {statement : Statement}
  {operation : Operation} {table child other : Table} {reference : Reference} {id : String}

theorem Table.isReferred_iff : table.IsReferred ↔ table = .tasks ∨ table = .habits := by
  constructor
  · rintro ⟨child, reference, hreference, rfl⟩
    cases child <;> cases hreference
    · exact .inl rfl
    · exact .inr rfl
  · rintro (rfl | rfl)
    · exact ⟨.subtasks, _, rfl, rfl⟩
    · exact ⟨.habitLogs, _, rfl, rfl⟩

/-- Rows that others refer to have no reference themselves. -/
theorem Table.not_isReferred (h : child.reference? = some reference) : ¬ child.IsReferred := by
  rw [isReferred_iff]
  rintro (rfl | rfl) <;> cases h

/-- The rows of different tables refer to different tables. -/
theorem Table.reference_injective {reference' : Reference} (h : child.reference? = some reference)
    (hother : other.reference? = some reference') (hparent : reference'.parent = reference.parent) :
    other = child := by
  cases child <;> cases h <;> cases other <;> cases hother <;> first | rfl | cases hparent

/-- Where columns of a row are set, each row is still there as far as another column goes. -/
theorem Store.exists_get?_assignFirst {assignments : List (String × Json)} {id : Json} {name : String}
    (h : ∀ field ∈ assignments, field.1 ≠ name) {rows written : List Record} {row : Record}
    (hassigned : assignFirst assignments id rows = some written) (hrow : row ∈ rows) :
    ∃ row' ∈ written, row'.get? name = row.get? name := by
  induction rows generalizing written with
  | nil => cases hrow
  | cons first rest ih =>
    unfold assignFirst at hassigned
    split_ifs at hassigned
    · cases hassigned
      rcases List.mem_cons.mp hrow with rfl | hrow
      · exact ⟨_, List.mem_cons_self .., Record.get?_foldl_set h⟩
      · exact ⟨row, List.mem_cons_of_mem _ hrow, rfl⟩
    · obtain ⟨others, hothers, rfl⟩ := Option.map_eq_some_iff.mp hassigned
      rcases List.mem_cons.mp hrow with rfl | hrow
      · exact ⟨row, List.mem_cons_self .., rfl⟩
      · obtain ⟨row', hrow', hget⟩ := ih hothers hrow
        exact ⟨row', List.mem_cons_of_mem _ hrow', hget⟩

namespace Statement

/-- Whether a statement leaves each row its id: no row is removed or replaced, and no id is set. -/
def KeepsIds : Statement → Prop
  | insert _ _ _ onConflict => onConflict = .append
  | update _ assignments _ => ∀ field ∈ assignments, field.1 ≠ "id"
  | delete .. => False
  | select _ => True

theorem KeepsIds.exists_id (h : statement.KeepsIds) {rows : List Record} {row : Record}
    (hrow : row ∈ rows) : ∃ row' ∈ statement.rowsAfter rows, row'.get? "id" = row.get? "id" := by
  unfold rowsAfter
  split
  · rename_i count written heffect
    cases statement with
    | insert table columns values conflict =>
      cases h
      cases heffect
      exact ⟨row, List.mem_append_left _ hrow, rfl⟩
    | update table assignments id =>
      simp only [effect] at heffect
      split at heffect
      · rename_i hassigned
        cases heffect
        exact exists_get?_assignFirst h hassigned hrow
      · cases heffect
    | delete => exact h.elim
    | select => cases heffect
  · exact ⟨row, hrow, rfl⟩

theorem hasId_after (hids : statement.table = table → statement.KeepsIds)
    (h : HasId table id content) : HasId table id (statement.after content) := by
  obtain ⟨row, hrow, hid⟩ := h
  by_cases htable : table = statement.table
  · subst htable
    obtain ⟨row', hrow', hget⟩ := (hids rfl).exists_id hrow
    exact ⟨row', after_self ▸ hrow', hget.trans hid⟩
  · exact ⟨row, (after_ne htable).symm ▸ hrow, hid⟩

/-- Whether a statement minds the references: it keeps the ids of rows that are referred to, and the
rows that it brings refer to rows that are there. -/
structure Minds (content : Table → List Record) (statement : Statement) : Prop where
  ids : statement.table.IsReferred → statement.KeepsIds
  rows : statement.Brings (Refers content statement.table)

theorem rowsAfter_delete {filter : Option Predicate} (rows : List Record) :
    (delete table filter).rowsAfter rows = kept filter rows := by
  unfold rowsAfter
  simp only [effect]
  split_ifs with hnone
  · exact ((kept_sublist filter rows).eq_of_length_le (Nat.le_of_sub_eq_zero hnone)).symm
  · rfl

theorem mem_after_delete {column text : String} {row : Record} :
    row ∈ (delete table (some (.hasText column text))).after content other ↔
      row ∈ content other ∧ (other = table → row.get? column ≠ some (.text text)) := by
  by_cases hother : other = table
  · subst hother
    have hafter : (delete other (some (.hasText column text))).after content other =
        (delete other (some (.hasText column text))).rowsAfter (content other) := after_self
    rw [hafter, rowsAfter_delete, kept, List.mem_filter]
    simp [← Predicate.holds_hasText]
  · have hafter : (delete table (some (.hasText column text))).after content other =
        content other := after_ne hother
    simp [hafter, hother]

end Statement

namespace Met

/-- A statement that minds the references leaves them met. -/
theorem after (h : Met content) (hminds : statement.Minds content) :
    Met (statement.after content) := by
  intro table row hrow reference hreference
  have hrefers := Statement.forall_after (P := Refers content) hminds.rows h table row hrow
  obtain ⟨id, hid, hparent⟩ := hrefers reference hreference
  refine ⟨id, hid, Statement.hasId_after (fun htable => hminds.ids ?_) hparent⟩
  exact ⟨table, reference, hreference, htable.symm⟩

/-- The rows with an id are deleted, and then those that refer to them. -/
theorem cascade (h : Met content) (hchild : child.reference? = some reference) (id : String) :
    Met ((Statement.delete child (some (.hasText reference.column id))).after
      ((Statement.delete reference.parent (some (.hasText "id" id))).after content)) := by
  intro other row hrow reference' hreference'
  obtain ⟨hrow, hkept⟩ := Statement.mem_after_delete.mp hrow
  obtain ⟨hrow, -⟩ := Statement.mem_after_delete.mp hrow
  obtain ⟨id', hid, parent, hparent, hparentId⟩ := h other row hrow reference' hreference'
  refine ⟨id', hid, parent, Statement.mem_after_delete.mpr
    ⟨Statement.mem_after_delete.mpr ⟨hparent, fun hsame heq => ?_⟩, fun hsame => ?_⟩, hparentId⟩
  · -- a row that refers to a deleted one would be deleted itself
    obtain rfl := Table.reference_injective hchild hreference' hsame
    cases hchild.symm.trans hreference'
    exact hkept rfl (hid.trans (hparentId.symm.trans heq))
  · exact absurd ⟨other, reference', hreference', hsame⟩ (Table.not_isReferred hchild)

end Met

/-- Whether a store has plain rows only and all that they refer to. -/
def Store.Anchored (store : Store) : Prop := ∃ content, store.HoldsPlain content ∧ Met content

theorem Store.Anchored.meets (h : store.Anchored) (hchild : child.reference? = some reference) :
    store.Meets child reference := by
  obtain ⟨content, hcontent, hmet⟩ := h
  refine ⟨_, _, hcontent.holds.tableRows child, hcontent.holds.tableRows reference.parent, ?_⟩
  exact fun row hrow => hmet child row hrow reference hchild

theorem Subtask.get?_taskId (subtask : Subtask) :
    (Record.ofFields subtask.columns).get? "task_id" = some (.text subtask.taskId) := by
  simp [Subtask.columns, Record.ofFields, Record.get?_set_self, Record.get?_set_ne]

theorem HabitLog.get?_habitId (entry : HabitLog) :
    (Record.ofFields entry.columns).get? "habit_id" = some (.text entry.habitId) := by
  simp [HabitLog.columns, Record.ofFields, Record.get?_set_self, Record.get?_set_ne]

/-! ### Operations -/

/-- A deletion runs where every table can be read. -/
theorem Workspace.removeWhere_ok (h : w.store.HoldsPlain content) (table : Table)
    (column text : String) : ∃ count, removeWhere table column text w = .ok count
      { w with store := storeAfter (.delete table (some (.hasText column text))) w.store } := by
  unfold removeWhere run change storeAfter
  generalize hstatement : Statement.delete table (some (.hasText column text)) = statement
  obtain ⟨⟨count, written⟩, heffect⟩ :
      ∃ result, statement.effect (content statement.table) = .ok result := by
    subst hstatement
    simp only [Statement.effect]
    split_ifs <;> exact ⟨_, rfl⟩
  have hrun := apply_of_effect (h.holds.tableRows statement.table) heffect
  refine ⟨count, ?_⟩
  cases written with
  | none => simp only [hrun]
  | some rows =>
    dsimp only at hrun
    rw [setTableRows_healthy h.holds.takesWrites] at hrun
    change w.store.apply statement = .ok (count, _) at hrun
    simp only [hrun]

/-- The rows with an id are removed, and then those that refer to them. -/
theorem Store.Anchored.cascade (h : w.store.Anchored) (hchild : child.reference? = some reference)
    (id : String) : (stateAfter ((do
      let removed ← Workspace.removeWhere reference.parent "id" id
      let _ ← Workspace.removeWhere child reference.column id
      return removed != 0 : Action DatabaseError Bool) w)).store.Anchored := by
  obtain ⟨content, hcontent, hmet⟩ := h
  have hplain : ∀ {table : Table} {column : String},
      ∀ v ∈ (Statement.delete table (some (.hasText column id))).values, v.Plain :=
    List.forall_mem_singleton.mpr (Json.plain_text id)
  obtain ⟨count, hrun⟩ := Workspace.removeWhere_ok hcontent reference.parent "id" id
  refine ⟨_, ?_, hmet.cascade hchild id⟩
  change (stateAfter (EStateM.bind _ _ w)).store.HoldsPlain _
  unfold EStateM.bind
  rw [hrun]
  dsimp only
  rw [stateAfter_bind_pure, Workspace.removeWhere, Workspace.stateAfter_run]
  exact (hcontent.storeAfter hplain).storeAfter hplain

namespace Operation

/-- Whether the row is there that an operation adds a row to. -/
def Finds (content : Table → List Record) : Operation → Prop
  | addSubtask taskId _ => HasId .tasks taskId content
  | logHabit habitId _ _ => HasId .habits habitId content
  | _ => True

/-- Whether an operation removes what rows refer to, and these with it. -/
def Cascades : Operation → Prop
  | deleteTask _ | deleteHabit _ => True
  | _ => False

/-- An operation minds the references, where the row is there that it adds a row to. -/
theorem minds (h : operation.Issues statement) (hrestores : ¬ operation.Restores)
    (hcascades : ¬ operation.Cascades) (hfinds : operation.Finds content) :
    statement.Minds content := by
  cases operation with
  | createTask | createNote | createEvent | createHabit | createRoutine =>
    obtain ⟨entity, rfl⟩ := h
    exact ⟨fun _ => rfl, fun _ h => nomatch h⟩
  | addSubtask taskId title =>
    obtain ⟨subtask, rfl, rfl⟩ := h
    refine ⟨fun _ => rfl, Statement.brings_insertFields ?_⟩
    rintro _ ⟨⟩
    exact ⟨subtask.taskId, subtask.get?_taskId, hfinds⟩
  | logHabit habitId date completed =>
    obtain ⟨entry, rfl, rfl⟩ := h
    refine ⟨fun hreferred => absurd hreferred (Table.not_isReferred rfl),
      Statement.brings_insertFields ?_⟩
    rintro _ ⟨⟩
    exact ⟨entry.habitId, entry.get?_habitId, hfinds⟩
  | updateTask id patch | updateNote id patch | updateEvent id patch =>
    obtain ⟨now, rfl⟩ := h
    exact ⟨fun _ => (patch.others.append (others_updatedAt now)).names, fun _ _ _ h => nomatch h⟩
  | updateHabit id patch | updateRoutine id patch =>
    subst h
    exact ⟨fun _ => patch.others.names, fun _ _ _ h => nomatch h⟩
  | setSubtaskCompleted id completed =>
    subst h
    refine ⟨fun hreferred => absurd hreferred (Table.not_isReferred rfl), ?_⟩
    rintro row hrow _ ⟨⟩
    obtain ⟨taskId, htaskId, htask⟩ := hrow _ rfl
    exact ⟨taskId, (Record.get?_foldl_set (by simp)).trans htaskId, htask⟩
  | deleteSubtask =>
    subst h
    exact ⟨fun hreferred => absurd hreferred (Table.not_isReferred rfl), trivial⟩
  | deleteNote | deleteEvent | deleteRoutine =>
    subst h
    exact ⟨fun hreferred => by cases Table.isReferred_iff.mp hreferred <;> contradiction, trivial⟩
  | setSetting =>
    subst h
    exact ⟨fun hreferred => by cases Table.isReferred_iff.mp hreferred <;> contradiction,
      fun _ h => nomatch h⟩
  | deleteTask | deleteHabit => exact absurd trivial hcascades
  | restore | restoreText => exact absurd trivial hrestores

/-- The row that an operation adds a row to stays there. -/
theorem finds_after (h : operation.Issues statement) (hfinds : operation.Finds content) :
    operation.Finds (statement.after content) := by
  cases operation with
  | addSubtask =>
    obtain ⟨subtask, -, rfl⟩ := h
    exact Statement.hasId_after (fun h => nomatch h) hfinds
  | logHabit =>
    obtain ⟨entry, -, rfl⟩ := h
    exact Statement.hasId_after (fun h => nomatch h) hfinds
  | _ => trivial

/-- An operation leaves the references met where the row is there that it adds a row to, unless it
restores a document. -/
theorem anchored_on (hrestores : ¬ operation.Restores) (h : w.store.HoldsPlain content)
    (hmet : Met content) (hfinds : operation.Finds content) : (operation.on w).store.Anchored := by
  by_cases hcascades : operation.Cascades
  · have hstore : w.store.Anchored := ⟨content, h, hmet⟩
    cases operation with
    | deleteTask id =>
      have hsubtasks : Table.subtasks.reference? = some ⟨"task_id", .tasks⟩ := rfl
      exact hstore.cascade hsubtasks id
    | deleteHabit id =>
      have hentries : Table.habitLogs.reference? = some ⟨"habit_id", .habits⟩ := rfl
      exact hstore.cascade hentries id
    | _ => exact hcascades.elim
  · obtain ⟨content', hcontent', hmet', -⟩ := (operation.reaches_on w).holdsPlain
      (J := fun content => Met content ∧ operation.Finds content)
      (fun _ hissues => plain_of_issues hissues hrestores)
      (fun statement content hissues ⟨hmet, hfinds⟩ =>
        ⟨hmet.after (minds hissues hrestores hcascades hfinds), finds_after hissues hfinds⟩)
      ⟨content, h, hmet, hfinds⟩
    exact ⟨content', hcontent', hmet'⟩

end Operation

/-! ### Commands -/

/-- A row that was found by its id is there. -/
theorem hasId_of_byId (h : store.Holds content) {row : Record}
    (hrow : store.queryOne (.byId table id) = .ok (some row)) : HasId table id content := by
  rw [h.queryOne] at hrow
  have hmem := List.mem_of_mem_head? (Except.ok.inj hrow)
  obtain ⟨hmem, hholds⟩ := List.mem_filter.mp hmem
  exact ⟨row, hmem, Predicate.holds_hasText.mp hholds⟩

/-- What was read of the row with an id is there. -/
theorem hasId_of_found {α : Type} (h : store.Holds content)
    {next : Option Record → Except DatabaseError (Option α)} {a : α}
    (hfound : store.queryOne (.byId table id) >>= next = .ok (some a)) (hnone : next none = .ok none) :
    HasId table id content := by
  obtain ⟨row?, hrow, hfound⟩ := bind_eq_ok.mp hfound
  cases row? with
  | none => cases hnone.symm.trans hfound
  | some row => exact hasId_of_byId h hrow

namespace CommandLine

/-- Whether a command restores a document. -/
def Command.Restores : Command → Prop
  | .restore _ => True
  | _ => False

variable {command : Command}

theorem Performs.restores (h : Performs w command operation) (hrestores : operation.Restores) :
    command.Restores := by
  cases h <;> first | exact trivial | exact hrestores.elim

/-- A command looks for the row that it adds a row to. -/
theorem Performs.finds (h : Performs w command operation) (hw : w.store.Holds content) :
    operation.Finds content := by
  cases h with
  | addSubtask taskId title task found => exact hasId_of_found hw found rfl
  | logHabit habitId date missed habit found => exact hasId_of_found hw found rfl
  | _ => trivial

theorem anchored_run (hquery : ¬ command.IsQuery) (hrestores : ¬ command.Restores) :
    Keeps (Terminal.Has fun w => w.store.Anchored) (run command) := by
  refine keeps_performed hquery fun w operation hperforms hw => ?_
  obtain ⟨content, hcontent, hmet⟩ := hw
  exact Operation.anchored_on (mt hperforms.restores hrestores) hcontent hmet
    (hperforms.finds hcontent.holds)

end CommandLine

/-! ### Runs -/

/-- No row refers to a setting, and settings refer to no rows. -/
theorem Met.settings (h : Met content) (rows : List Record) :
    Met (Function.update content .settings rows) := by
  intro table row hrow reference hreference
  have htable : table ≠ .settings := by
    rintro rfl
    cases hreference
  rw [Function.update_of_ne htable] at hrow
  obtain ⟨id, hid, parent, hparent, hparentId⟩ := h table row hrow reference hreference
  refine ⟨id, hid, parent, ?_, hparentId⟩
  rw [Function.update_of_ne]
  · exact hparent
  · intro hsettings
    have hreferred : reference.parent.IsReferred := ⟨table, reference, hreference, rfl⟩
    rw [hsettings] at hreferred
    cases Table.isReferred_iff.mp hreferred <;> contradiction

theorem anchored_fresh (now : Instant) : (fresh now).store.Anchored :=
  ⟨_, holdsPlain_fresh now, Met.settings (fun _ _ hrow => absurd hrow List.not_mem_nil) _⟩

namespace Operation

/-- Whether an operation adds a row to another. -/
def Attaches : Operation → Prop
  | addSubtask .. | logHabit .. => True
  | _ => False

theorem finds_of_not_attaches (h : ¬ operation.Attaches) : operation.Finds content := by
  cases operation with
  | addSubtask | logHabit => exact absurd trivial h
  | _ => trivial

end Operation

namespace Access

/-- Whether an access is that the planner is opened, that a command is run but for a query or one
that restores a document, or that an operation is carried out that neither restores a document nor
adds a row to another, which only commands look for. -/
def Tame : Access → Prop
  | .step .opening => True
  | .step (.command _ _ _ command) => ¬ command.IsQuery ∧ ¬ command.Restores
  | .turn taken => ¬ taken.operation.Restores ∧ ¬ taken.operation.Attaches
  | .statement _ | .batch _ | .sql _ _ => False

theorem anchored_on {access : Access} (htame : access.Tame) (h : w.store.Anchored) :
    (access.on w).store.Anchored := by
  cases access with
  | step step =>
    cases step with
    | opening =>
      obtain ⟨content, hcontent, hmet⟩ := h
      exact ⟨_, hcontent.prepare, hmet.settings _⟩
    | command now files noteFolder command =>
      exact CommandLine.anchored_run htame.1 htame.2 ⟨{ w with now }, files, "", noteFolder⟩ h
  | turn turn =>
    obtain ⟨content, hcontent, hmet⟩ := h
    exact Operation.anchored_on (w := turn.start w) htame.1 hcontent hmet
      (Operation.finds_of_not_attaches htame.2)
  | statement | batch | sql => exact htame.elim

end Access

/-- In every state of a run from a planner that was just made, of commands and operations of which
none restores a document and none queries, and only commands add rows to others, each subtask belongs
to a task that is stored, and each entry of the log to a habit. -/
theorem references_met (now : Instant) (accesses : List Access)
    (htame : ∀ access ∈ accesses, access.Tame) (n : Nat) :
    (afterAccesses (accesses.take n) (fresh now)).store.Meets .subtasks ⟨"task_id", .tasks⟩ ∧
      (afterAccesses (accesses.take n) (fresh now)).store.Meets .habitLogs
        ⟨"habit_id", .habits⟩ := by
  have hanchored : (afterAccesses (accesses.take n) (fresh now)).store.Anchored :=
    afterAccesses_invariant (I := fun w => w.store.Anchored)
      (fun _ _ htame h => Access.anchored_on htame h)
      (fun access haccess => htame access (List.mem_of_mem_take haccess)) (anchored_fresh now)
  exact ⟨hanchored.meets rfl, hanchored.meets rfl⟩

/-- A habit with an entry is added, it is renamed, and at last it is deleted. -/
def tidying : List Access := [
  .step (.command ⟨0⟩ [] "" (.addHabit "Read" none)),
  .step (.command ⟨0⟩ [] "" (.logHabit (idOfNumber 1) none false)),
  .turn ⟨⟨1⟩, 2, .updateHabit (idOfNumber 1) { name := some "Write" }⟩,
  .turn ⟨⟨1⟩, 2, .deleteHabit (idOfNumber 1)⟩]

theorem references_met_tidying : ∃ entries,
    (afterAccesses (tidying.take 2) (fresh ⟨0⟩)).store.tableRows .habitLogs = .ok entries ∧
      entries.length = 1 ∧
    (afterAccesses (tidying.take 2) (fresh ⟨0⟩)).store.Meets .habitLogs ⟨"habit_id", .habits⟩ ∧
    (afterAccesses (tidying.take 4) (fresh ⟨0⟩)).store.Meets .habitLogs ⟨"habit_id", .habits⟩ := by
  have htame : ∀ access ∈ tidying, access.Tame := by
    simp [tidying, Access.Tame, CommandLine.Command.IsQuery, CommandLine.Command.Restores,
      Operation.Restores, Operation.Attaches]
  obtain ⟨entries, hentries, hone⟩ : ∃ entries,
      (afterAccesses (tidying.take 2) (fresh ⟨0⟩)).store.tableRows .habitLogs = .ok entries ∧
        decide (entries.length = 1) = true := exists_of_any (by decide +kernel)
  exact ⟨entries, hentries, of_decide_eq_true hone, (references_met ⟨0⟩ tidying htame 2).2,
    (references_met ⟨0⟩ tidying htame 4).2⟩

end Planner

import Planner.Proofs.Operations

/-! Tables that cannot be read: nothing overwrites their text, and every statement on them fails. -/
namespace Planner

open Outcome

namespace Store

variable {store store' start : Store} {table : Table} {text : String} {statement : Statement}
  {count : Nat} {kind : Statement → Prop}

/-- Whether a table has a text that is not one of a list of rows. -/
structure Unreadable (table : Table) (text : String) (store : Store) : Prop where
  stored : store.text? table.name = some text
  refused : ∃ e, rowsOfText table.name text = .error e

/-- Whether everything that reads or changes a table fails. -/
structure Refuses (table : Table) (store : Store) : Prop where
  apply : ∀ statement, statement.table = table → ∃ e, store.apply statement = .error e
  query : ∀ select : Select, select.table = table → ∃ e, store.query select = .error e
  queryOne : ∀ select : Select, select.table = table → ∃ e, store.queryOne select = .error e
  sql : ∀ sql parameters statement, Sql.parse sql parameters = .ok statement →
    statement.table = table → (∃ e, store.execute sql parameters = .error e) ∧
      (∃ e, store.fetchOne sql parameters = .error e) ∧ ∃ e, store.fetchAll sql parameters = .error e
  batch : ∀ statements : List Statement, (∃ statement ∈ statements, statement.table = table) →
    ∃ e, (store.applyBatch statements).1 = .error e

namespace Unreadable

theorem rows (h : store.Unreadable table text) : ∃ e, store.rows table.name = .error e := by
  obtain ⟨e, he⟩ := h.refused
  refine ⟨e, ?_⟩
  unfold Store.rows
  rw [h.stored]
  exact he

theorem tableRows (h : store.Unreadable table text) : ∃ e, store.tableRows table = .error e := by
  obtain ⟨e, he⟩ := h.rows
  refine ⟨.store e, ?_⟩
  rw [Store.tableRows, he]
  rfl

/-- A statement that ran has read its table, so the text of this one is still there. -/
theorem apply (h : store.Unreadable table text)
    (hrun : store.apply statement = .ok (count, store')) : store'.Unreadable table text := by
  obtain ⟨rows, -, hrows, -⟩ := apply_cases hrun
  have hother : table ≠ statement.table := by
    rintro rfl
    obtain ⟨e, he⟩ := h.tableRows
    cases he.symm.trans hrows
  exact ⟨(text?_apply_ne hrun hother).trans h.stored, h.refused⟩

theorem reaches (h : store.Unreadable table text) (hreaches : store.Reaches kind store') :
    store'.Unreadable table text :=
  hreaches.invariant (fun _ _ _ _ _ hstore hrun => hstore.apply hrun) h

/-- A write of another table leaves the text. -/
theorem setRows (h : store.Unreadable table text) {other : Table} (hother : table ≠ other)
    {rows : List Record} (hrun : store.setRows other.name rows = .ok store') :
    store'.Unreadable table text := by
  refine ⟨?_, h.refused⟩
  rw [← h.stored, Store.text?, Store.text?, put_texts hrun,
    lookup_putText_ne (Table.name_injective.ne hother)]

/-- Only tables without a text are created. -/
theorem createMissing (h : store.Unreadable table text) (tables : List Table) :
    (store.createMissing tables).2.Unreadable table text := by
  induction tables generalizing store with
  | nil => exact h
  | cons other rest ih =>
    unfold Store.createMissing
    split_ifs with hsome
    · exact ih h
    · have hother : table ≠ other := by
        rintro rfl
        rw [h.stored] at hsome
        exact hsome rfl
      cases hset : store.setRows other.name [] with
      | error e => exact h
      | ok store' => exact ih (h.setRows hother hset)

/-- The settings are only seeded where they were read. -/
theorem seedSettings (h : store.Unreadable table text) :
    store.seedSettings.2.Unreadable table text := by
  unfold Store.seedSettings
  cases hrows : store.rows Table.settings.name with
  | error e => exact h
  | ok rows =>
    have hother : table ≠ .settings := by
      rintro rfl
      obtain ⟨e, he⟩ := h.rows
      cases he.symm.trans hrows
    cases rows with
    | nil =>
      dsimp only
      cases hset : store.setRows Table.settings.name defaultSettings with
      | error e => exact h
      | ok store' => exact h.setRows hother hset
    | cons => exact h

theorem prepare (h : store.Unreadable table text) : store.prepare.2.Unreadable table text := by
  have hcreated := h.createMissing Table.all
  unfold Store.prepare
  generalize store.createMissing Table.all = outcome at hcreated
  obtain ⟨result, store'⟩ := outcome
  cases result with
  | error e => exact hcreated
  | ok => exact hcreated.seedSettings

theorem apply_error (h : store.Unreadable table text) (htable : statement.table = table) :
    ∃ e, store.apply statement = .error e := by
  cases hrun : store.apply statement with
  | error e => exact ⟨e, rfl⟩
  | ok result =>
    obtain ⟨rows, -, hrows, -⟩ := apply_cases hrun
    obtain ⟨e, he⟩ := h.tableRows
    rw [htable] at hrows
    cases he.symm.trans hrows

theorem query_error (h : store.Unreadable table text) {select : Select}
    (htable : select.table = table) : ∃ e, store.query select = .error e :=
  bind_error (htable ▸ h.tableRows)

/-- A batch gets to a statement on the table at most. -/
theorem applyFrom_error (h : store.Unreadable table text) {statements : List Statement}
    (hmem : ∃ statement ∈ statements, statement.table = table) (index touched : Nat) :
    ∃ e, (store.applyFrom index touched statements).1 = .error e := by
  induction statements generalizing store index touched with
  | nil => simp at hmem
  | cons first rest ih =>
    unfold applyFrom
    cases hrun : store.apply first with
    | error e => exact ⟨_, rfl⟩
    | ok result =>
      obtain ⟨count, store'⟩ := result
      refine ih (h.apply hrun) ?_ _ _
      obtain ⟨statement, hstatement, htable⟩ := hmem
      rcases List.mem_cons.mp hstatement with rfl | hrest
      · obtain ⟨e, he⟩ := h.apply_error htable
        cases he.symm.trans hrun
      · exact ⟨statement, hrest, htable⟩

theorem refuses (h : store.Unreadable table text) : store.Refuses table where
  apply _ := h.apply_error
  query _ := h.query_error
  queryOne _ htable := bind_error (h.query_error htable)
  sql sql parameters statement hparse htable := by
    have hparsed : (Sql.parse sql parameters).mapError DatabaseError.parse = .ok statement :=
      mapError_eq_ok.mpr hparse
    unfold execute fetchOne fetchAll parseSelect
    simp only [hparsed]
    refine ⟨h.apply_error htable, ?_⟩
    cases statement with
    | select select =>
      have hone : ∃ e, store.queryOne select = .error e := bind_error (h.query_error htable)
      exact ⟨hone, h.query_error htable⟩
    | insert | update | delete => exact ⟨⟨_, rfl⟩, ⟨_, rfl⟩⟩
  batch statements hmem := h.applyFrom_error hmem 0 0

end Unreadable
end Store

open Store
open CommandLine (storeAfter)

variable {table : Table} {text : String} {w : Workspace}

/-- The ways to use a planner: it is opened or a command is run, a statement, a batch of them or the
text of one is run, or an operation is carried out. -/
inductive Access
  | step (step : CommandLine.Step)
  | statement (statement : Statement)
  | batch (statements : List Statement)
  | sql (text : String) (parameters : List Json)
  | turn (turn : Turn)

/-- The workspace after an access, whether it went well or not. -/
def Access.on (w : Workspace) : Access → Workspace
  | .step taken => taken.on w
  | .statement issued => { w with store := storeAfter issued w.store }
  | .batch statements => { w with store := (w.store.applyBatch statements).2 }
  | .sql text parameters => match w.store.execute text parameters with
    | .ok (_, store) => { w with store }
    | .error _ => w
  | .turn taken => taken.on w

/-- The workspace after accesses in order. -/
def afterAccesses (accesses : List Access) (w : Workspace) : Workspace :=
  accesses.foldl Access.on w

/-- What each access of a kind leaves true is true after all of them. -/
theorem afterAccesses_invariant {I : Workspace → Prop} {kind : Access → Prop}
    (hstep : ∀ access w, kind access → I w → I (access.on w)) {accesses : List Access}
    (hkind : ∀ access ∈ accesses, kind access) (h : I w) : I (afterAccesses accesses w) := by
  induction accesses generalizing w with
  | nil => exact h
  | cons first rest ih =>
    obtain ⟨hfirst, hrest⟩ := List.forall_mem_cons.mp hkind
    exact ih hrest (hstep first w hfirst h)

theorem Store.Unreadable.storeAfter {store : Store} (h : store.Unreadable table text)
    (statement : Statement) : (storeAfter statement store).Unreadable table text := by
  unfold CommandLine.storeAfter
  cases hrun : store.apply statement with
  | error e => exact h
  | ok result => exact h.apply hrun

theorem Operation.unreadable_on (h : w.store.Unreadable table text) (operation : Operation) :
    (operation.on w).store.Unreadable table text :=
  h.reaches (operation.reaches_on w)

/-- A command leaves the text of a table that cannot be read. -/
theorem CommandLine.unreadable_run {t : Terminal} (h : t.workspace.store.Unreadable table text)
    (command : Command) :
    (stateAfter (run command t)).workspace.store.Unreadable table text := by
  by_cases hquery : command.IsQuery
  · cases command with
    | query sql parameters =>
      by_cases hparsed : ∃ values statement, Given parameters values ∧
          Sql.parse sql values = .ok statement
      · obtain ⟨values, statement, hgiven, hparse⟩ := hparsed
        have hstore : (stateAfter (query sql parameters t)).workspace.store = _ :=
          query_store hgiven hparse
        have hafter := h.storeAfter statement
        rwa [← hstore] at hafter
      · push Not at hparsed
        rwa [← query_refused hparsed] at h
    | _ => exact hquery.elim
  · exact keeps_performed (I := fun w => w.store.Unreadable table text) hquery
      (fun w operation _ hw => operation.unreadable_on hw) t h

theorem Access.unreadable_on (h : w.store.Unreadable table text) (access : Access) :
    (access.on w).store.Unreadable table text := by
  cases access with
  | step step =>
    cases step with
    | opening => exact h.prepare
    | command now files noteFolder command =>
      exact CommandLine.unreadable_run (t := ⟨{ w with now }, files, "", noteFolder⟩) h command
  | statement statement => exact h.storeAfter statement
  | batch statements =>
    have hreaches : w.store.Reaches (fun _ => True) (w.store.applyBatch statements).2 :=
      Reaches.applyFrom (fun _ _ => trivial) 0 0 .refl
    exact h.reaches hreaches
  | sql text parameters =>
    change (match w.store.execute text parameters with
      | .ok (_, store) => { w with store }
      | .error _ => w : Workspace).store.Unreadable _ _
    cases hrun : w.store.execute text parameters with
    | error e => exact h
    | ok result =>
      obtain ⟨statement, -, hrun⟩ := bind_eq_ok.mp hrun
      exact h.apply hrun
  | turn turn => exact turn.operation.unreadable_on (w := turn.start w) h

/-- Once a table has a text that cannot be read, it has that text after all later accesses, and
everything that reads or changes the table fails then. -/
theorem unreadable_kept (w : Workspace) (accesses : List Access) (n m : Nat) (hnm : n ≤ m)
    (table : Table) (text : String)
    (hstored : (afterAccesses (accesses.take n) w).store.text? table.name = some text)
    (hrefused : ∀ rows, rowsOfText table.name text ≠ .ok rows) :
    (afterAccesses (accesses.take m) w).store.text? table.name = some text ∧
      (afterAccesses (accesses.take m) w).store.Refuses table := by
  have hstart : (afterAccesses (accesses.take n) w).store.Unreadable table text := by
    refine ⟨hstored, ?_⟩
    cases hread : rowsOfText table.name text with
    | error e => exact ⟨e, rfl⟩
    | ok rows => exact absurd hread (hrefused rows)
  obtain ⟨k, rfl⟩ := Nat.exists_eq_add_of_le hnm
  rw [List.take_add, afterAccesses, List.foldl_append]
  have hend := afterAccesses_invariant (I := fun w => w.store.Unreadable table text)
    (fun access _ (_ : True) h => access.unreadable_on h)
    (fun _ (_ : _ ∈ (accesses.drop n).take k) => trivial) hstart
  exact ⟨hend.stored, hend.refuses⟩

/-- A planner whose tasks are a text that was cut off. -/
def torn : Workspace := ⟨⟨[("tasks", "[\x7b\"id\":\"a\"")], none⟩, ⟨0⟩, 0⟩

/-- It is opened, all tasks are deleted, a task is added, and an empty document is restored. -/
def repairing : List Access := [
  .step .opening, .statement (.delete .tasks none), .turn ⟨⟨1⟩, 0, .createTask { title := "Pack" }⟩,
  .turn ⟨⟨2⟩, 1, .restoreText "\x7b\"data\":\x7b\x7d\x7d"⟩]

theorem unreadable_kept_torn :
    (afterAccesses (repairing.take 4) torn).store.text? Table.tasks.name =
        some "[\x7b\"id\":\"a\"" ∧
      (afterAccesses (repairing.take 4) torn).store.Refuses .tasks := by
  have hstored : (afterAccesses (repairing.take 1) torn).store.text? Table.tasks.name =
      some "[\x7b\"id\":\"a\"" := by decide +kernel
  have hrefused : (rowsOfText Table.tasks.name "[\x7b\"id\":\"a\"").toOption.isNone = true := by
    decide +kernel
  refine unreadable_kept torn repairing 1 4 (by decide) .tasks _ hstored fun rows hrows => ?_
  rw [hrows] at hrefused
  cases hrefused

end Planner

import Planner.Proofs.Store.Prepare
import Planner.Proofs.Transfer.Document
import Planner.Proofs.Transfer.Refill

/-! Restoring a document: all of it, or nothing when the document is refused. -/
namespace Planner

open Json Store Outcome

/-- The errors that say a document cannot be restored. -/
def TransferError.Refused : TransferError → Prop
  | .unreadable _ | .rowWithoutKey .. => True
  | .database _ | .batch _ => False

namespace Transfer

variable {w : Workspace} {content : Table → List Record} {document : Document}

/-- How many rows a document has. -/
def rowCount (data : Sections) : Nat := (Table.all.map fun table => (rowsOf data table).length).sum

/-- What the tables hold after a document was restored. -/
def restored (data : Sections) (content : Table → List Record) (table : Table) : List Record :=
  refill table (if table = .settings then content table else []) (rowsOf data table)

theorem restore_eq_error (document : Document) (h : ¬ Keyed document.data) (w : Workspace) :
    ∃ table index column, restore document w = .error (.rowWithoutKey table index column) w := by
  have hbad : ∃ table ∈ Table.all, ∃ row ∈ rowsOf document.data table, ¬ HasKey table row := by
    unfold Keyed at h
    push Not at h
    obtain ⟨table, row, hrow, hkey⟩ := h
    exact ⟨table, Table.mem_all table, row, hrow, hkey⟩
  obtain ⟨table, index, column, herror⟩ := refillings_eq_error hbad
  refine ⟨table, index, column, ?_⟩
  unfold restore
  rw [herror]

theorem restore_eq_ok (document : Document) (hw : w.store.Holds content) (hkeyed : Keyed document.data)
    (hstorable : ∀ table, ∀ row ∈ rowsOf document.data table, Storable row) :
    ∃ store', restore document w = .ok (rowCount document.data) { w with store := store' } ∧
      store'.Holds (restored document.data content) := by
  have hclear := turns_clearings (Table.all.filter (· ≠ .settings)) content
  have hnodup : Table.all.Nodup := by decide
  have hfill := turns_refillings hkeyed hstorable hnodup
    (fun table => if table ∈ Table.all.filter (· ≠ .settings) then [] else content table)
  obtain ⟨count, store', hrun, hstore⟩ := (hclear.append hfill).applyBatch hw
  refine ⟨store', ?_, ?_⟩
  · unfold restore
    rw [refillings_eq_ok hkeyed]
    simp only [clearings, hrun]
    congr 1
    simp only [rowCount, List.length_flatMap, List.length_map]
  · have hcontent : (fun table => if table ∈ Table.all then refill table
          (if table ∈ Table.all.filter (· ≠ .settings) then [] else content table)
          (rowsOf document.data table)
        else if table ∈ Table.all.filter (· ≠ .settings) then [] else content table) =
        restored document.data content := by
      funext table
      simp only [restored, List.mem_filter, Table.mem_all, true_and, decide_eq_true_eq, ite_not,
        if_true]
    rw [← hcontent]
    exact hstore

theorem storable_of_documentOfText {text : String} (h : documentOfText text = .ok document)
    (table : Table) : ∀ row ∈ rowsOf document.data table, Storable row := by
  intro row hrow
  obtain ⟨hordered, hfields⟩ := recordFits_of_documentOfText h table row hrow
  exact ⟨hordered, fun field hf => ⟨(hfields field hf).1, (hfields field hf).2.trans (by decide)⟩⟩

/-- What a table is to hold after a restoration: settings are set one by one, the other rows are
those of the document. -/
def replaced (data : Sections) (content : Table → List Record) (table : Table) : List Record :=
  if table = .settings then upsertAll table (content table) (rowsOf data table)
  else rowsOf data table

/-- A data table is left as it is to be when its rows survive being read as often as they are. -/
theorem restored_eq_replaced_iff {data : Sections} {table : Table} (h : table ≠ .settings) :
    restored data content table = replaced data content table ↔
      ∀ (index : Nat) (hi : index < (rowsOf data table).length),
        rereadFields^[(rowsOf data table).length - index] (rowsOf data table)[index] =
          (rowsOf data table)[index] := by
  simp only [restored, replaced, if_neg h, refill_data h, List.map_nil, List.nil_append]
  rw [List.ext_getElem_iff]
  simp only [List.length_mapIdx, List.getElem_mapIdx, true_and]
  exact ⟨fun heq index hi => heq index hi hi, fun heq index hi _ => heq index hi⟩

/-- The settings are left as they are to be when every double of theirs is read back. -/
theorem restored_settings {data : Sections}
    (h : ∀ row ∈ content .settings ++ rowsOf data .settings, ReadsBack row) :
    restored data content .settings = replaced data content .settings := by
  simp only [restored, replaced, if_true]
  rw [refill_readsBack (fun row hrow => h row (List.mem_append_left _ hrow))
    fun row hrow => h row (List.mem_append_right _ hrow)]
  rfl

/-- A restoration either is refused and changes nothing, or restores every row; a table is left as
it is to be up to the doubles that are not read back as themselves. -/
theorem restoreText_healthy (hw : w.store.Holds content) (text : String) :
    (∃ e, restoreText text w = .error e w ∧ e.Refused) ∨
    ∃ document store', documentOfText text = .ok document ∧
      restoreText text w = .ok (rowCount document.data) { w with store := store' } ∧
      store'.Holds (restored document.data content) ∧
      ((∀ row ∈ content .settings ++ rowsOf document.data .settings, ReadsBack row) →
        restored document.data content .settings = replaced document.data content .settings) ∧
      ∀ table, table ≠ .settings →
        (restored document.data content table = replaced document.data content table ↔
          ∀ (index : Nat) (hi : index < (rowsOf document.data table).length),
            rereadFields^[(rowsOf document.data table).length - index]
              (rowsOf document.data table)[index] = (rowsOf document.data table)[index]) := by
  unfold restoreText
  cases hdocument : documentOfText text with
  | error fault => exact .inl ⟨.unreadable fault, rfl, trivial⟩
  | ok document =>
    by_cases hkeyed : Keyed document.data
    · obtain ⟨store', hrun, hstore⟩ := restore_eq_ok document hw hkeyed
        (storable_of_documentOfText hdocument)
      exact .inr ⟨document, store', rfl, hrun, hstore, restored_settings,
        fun table => restored_eq_replaced_iff⟩
    · obtain ⟨table, index, column, herror⟩ := restore_eq_error document hkeyed w
      exact .inl ⟨_, herror, trivial⟩

/-- A planner with nothing stored. -/
def blank : Workspace := ⟨Store.empty, ⟨0⟩, 0⟩

/-- A task with a double whose text is read as another double, and a task behind it. -/
def misreadText : String :=
  "\x7b\"data\":\x7b\"tasks\":[\x7b\"id\":\"a\",\"x\":9.0085445678884372\x7d,\x7b\"id\":\"b\"\x7d]\x7d\x7d"

/-- The tasks of a document, and the tasks that are stored when it was restored. -/
def tasksBeforeAndAfter (text : String) : Option (List Record × List Record) :=
  match documentOfText text, restoreText text blank with
  | .ok document, .ok _ w => match w.store.rows Table.tasks.name with
    | .ok rows => some (rowsOf document.data .tasks, rows)
    | .error _ => none
  | _, _ => none

theorem restoreText_blank : ∃ count store',
    restoreText misreadText blank = .ok count { blank with store := store' } := by
  rcases restoreText_healthy (w := blank) holds_empty misreadText with
    ⟨e, herror, -⟩ | ⟨document, store', -, hrun, -⟩
  · have hsome : (tasksBeforeAndAfter misreadText).isSome = true := by decide +kernel
    unfold tasksBeforeAndAfter at hsome
    rw [herror] at hsome
    split at hsome <;> simp_all
  · exact ⟨_, store', hrun⟩

/-- The double of the first task is stored as another one. -/
theorem tasks_misread :
    (tasksBeforeAndAfter misreadText).any (fun tasks => decide (tasks.1 ≠ tasks.2)) = true := by
  decide +kernel

end Transfer
end Planner

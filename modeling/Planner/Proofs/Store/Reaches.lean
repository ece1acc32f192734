import Planner.Proofs.Store.Backend
import Planner.Proofs.Store.Fields
import Planner.Proofs.Store.Statements

/-! Stores that come from others by statements, and what the tables hold after a statement when all
values are plain: such rows are read back as they were written. -/
namespace Planner

open Json Outcome

theorem Json.Plain.fits {value : Json} (h : value.Plain) (levels : Nat) : value.Fits levels :=
  ⟨h.sorted, h.1.trans_le (Nat.zero_le _)⟩

/-- A row in order whose values are plain. -/
structure Record.Plain (row : Record) : Prop where
  ordered : Record.Ordered row
  fields : ∀ field ∈ row, field.2.Plain

namespace Record.Plain

variable {row : Record} {fields : List (String × Json)}

theorem storable (h : row.Plain) : Store.Storable row :=
  ⟨h.ordered, fun field hf => (h.fields field hf).fits _⟩

theorem reread_eq (h : row.Plain) : rereadFields row = row :=
  rereadFields_eq_self fun field hf => (h.fields field hf).reread_eq

theorem foldl_set (h : row.Plain) (hfields : ∀ field ∈ fields, field.2.Plain) :
    Record.Plain (fields.foldl (fun row field => row.set field.1 field.2) row) :=
  ⟨ordered_foldl_set h.ordered, Record.foldl_set (fun _ value => value.Plain) h.fields hfields⟩

theorem ofFields (hfields : ∀ field ∈ fields, field.2.Plain) : (Record.ofFields fields).Plain :=
  foldl_set ⟨List.Pairwise.nil, by simp⟩ hfields

end Record.Plain

namespace Statement

variable {statement : Statement} {rows written : List Record} {count : Nat}
  {content : Table → List Record}

/-- Whether the rows that a statement brings in or sets columns of have a property, where those
before it have it. -/
def Brings (P : Record → Prop) : Statement → Prop
  | .insert _ columns values _ => P (.ofFields (columns.zip values))
  | .update _ assignments _ => ∀ row, P row →
    P (assignments.foldl (fun row field => row.set field.1 field.2) row)
  | .delete .. | .select _ => True

theorem brings_insertFields {table : Table} {fields : List (String × Json)}
    {onConflict : OnConflict} {P : Record → Prop} (h : P (.ofFields fields)) :
    (insertFields table fields onConflict).Brings P := by
  simpa only [insertFields, Brings, List.zip_map', List.map_id'] using h

theorem brings_plain (h : ∀ v ∈ statement.values, v.Plain) : statement.Brings Record.Plain := by
  cases statement with
  | insert table columns values conflict =>
    exact .ofFields fun field hf => h field.2 (List.of_mem_zip hf).2
  | update table assignments id =>
    refine fun row hrow => hrow.foldl_set fun field hf => ?_
    exact h field.2 (List.mem_append_left _ (List.mem_map_of_mem hf))
  | delete | select => trivial

/-- A statement with plain values never sets a column too deep. -/
theorem depth_fields (h : ∀ v ∈ statement.values, v.Plain) :
    depthFields statement.fields ≤ Store.rowDepth := by
  have hfields : ∀ fields : List (String × Json), (∀ field ∈ fields, field.2.Plain) →
      depthFields (Record.ofFields fields) ≤ Store.rowDepth := by
    intro fields hplain
    refine depthFields_le_iff.mpr fun field hf => ?_
    have hdepth := (Record.foldl_set (fun _ value => value.Plain) (by simp) hplain field hf).1
    exact hdepth.trans_le (Nat.zero_le _)
  cases statement with
  | insert table columns values conflict =>
    exact hfields _ fun field hf => h field.2 (List.of_mem_zip hf).2
  | update table assignments id =>
    exact hfields _ fun field hf => h field.2 (List.mem_append_left _ (List.mem_map_of_mem hf))
  | delete | select => exact Nat.zero_le _

/-- What is true of all rows before a statement and of those that it brings is true of all rows
that it writes. -/
theorem forall_written {P : Record → Prop} (hbrings : statement.Brings P)
    (hrows : ∀ row ∈ rows, P row) (heffect : statement.effect rows = .ok (count, some written)) :
    ∀ row ∈ written, P row := by
  cases statement with
  | insert table columns values conflict =>
    simp only [effect] at heffect
    split_ifs at heffect
    · cases heffect
      exact List.forall_mem_append.mpr ⟨hrows, List.forall_mem_singleton.mpr hbrings⟩
    · obtain ⟨key, -, heffect⟩ := bind_eq_ok.mp heffect
      rw [Store.upserted_eq] at heffect
      split_ifs at heffect
      · cases heffect
      · cases heffect
        exact Store.forall_mem_upsertRow hbrings hrows
  | update table assignments id =>
    simp only [effect] at heffect
    split at heffect
    · rename_i hassigned
      cases heffect
      obtain ⟨old, hold, new, -, rfl, hmem⟩ := Store.mem_assignFirst hassigned
      intro row hrow
      rcases hmem row hrow with rfl | hrow
      · exact hbrings old (hrows old hold)
      · exact hrows row hrow
    · cases heffect
  | delete table filter =>
    simp only [effect] at heffect
    split_ifs at heffect
    · cases heffect
    · cases heffect
      exact fun row hrow => hrows row ((Store.kept_sublist filter rows).subset hrow)
  | select s => cases heffect

/-- The rows of a statement's table after it; if it writes none they stay. -/
def rowsAfter (statement : Statement) (rows : List Record) : List Record :=
  match statement.effect rows with
  | .ok (_, some written) => written
  | _ => rows

/-- What the tables hold after a statement. -/
def after (statement : Statement) (content : Table → List Record) : Table → List Record :=
  Function.update content statement.table (statement.rowsAfter (content statement.table))

theorem after_ne {table : Table} (h : table ≠ statement.table) :
    statement.after content table = content table := Function.update_of_ne h ..

theorem after_self : statement.after content statement.table =
    statement.rowsAfter (content statement.table) := Function.update_self ..

theorem forall_rowsAfter {P : Record → Prop} (hbrings : statement.Brings P)
    (hrows : ∀ row ∈ rows, P row) : ∀ row ∈ statement.rowsAfter rows, P row := by
  unfold rowsAfter
  split
  · rename_i heffect
    exact forall_written hbrings hrows heffect
  · exact hrows

/-- What is true of every row before a statement, and of those that it brings, is true after it. -/
theorem forall_after {P : Table → Record → Prop} (hbrings : statement.Brings (P statement.table))
    (h : ∀ table, ∀ row ∈ content table, P table row) :
    ∀ table, ∀ row ∈ statement.after content table, P table row := by
  intro table row hrow
  by_cases htable : table = statement.table
  · subst htable
    rw [after_self] at hrow
    exact forall_rowsAfter hbrings (h statement.table) row hrow
  · rw [after_ne htable] at hrow
    exact h table row hrow

end Statement

namespace Store

variable {store store' start : Store} {statement : Statement} {count : Nat}
  {content : Table → List Record} {kind : Statement → Prop}

/-- A statement leaves the texts of other tables. -/
theorem text?_apply_ne {other : Table} (hrun : store.apply statement = .ok (count, store'))
    (hother : other ≠ statement.table) : store'.text? other.name = store.text? other.name := by
  have hatomic := backend.atomic_apply statement store
  rw [apply_backend, hrun] at hatomic
  exact Except.ok.inj (hatomic other.name (Table.name_injective.ne hother))

/-- What a store holds whose rows are all plain. -/
structure HoldsPlain (store : Store) (content : Table → List Record) : Prop where
  holds : store.Holds content
  plain : ∀ table, ∀ row ∈ content table, row.Plain

/-- A statement with plain values makes of the tables what it makes of their rows. -/
theorem HoldsPlain.apply (h : store.HoldsPlain content) (hvalues : ∀ v ∈ statement.values, v.Plain)
    (hrun : store.apply statement = .ok (count, store')) :
    store'.HoldsPlain (statement.after content) := by
  refine ⟨?_, Statement.forall_after (Statement.brings_plain hvalues) h.plain⟩
  obtain ⟨rows, written, hrows, heffect, hset⟩ := apply_cases hrun
  cases (h.holds.tableRows statement.table).symm.trans hrows
  cases written with
  | none =>
    subst hset
    have hsame : statement.after content = content := by
      unfold Statement.after Statement.rowsAfter
      rw [heffect, Function.update_eq_self]
    rw [hsame]
    exact h.holds
  | some written =>
    have hplain := Statement.forall_written (Statement.brings_plain hvalues)
      (h.plain statement.table) heffect
    dsimp only at hset
    rw [setTableRows_healthy h.holds.takesWrites] at hset
    cases hset
    have hwritten : (store.written statement.table written).Holds _ :=
      h.holds.written fun row hrow => (hplain row hrow).storable
    rw [List.map_congr_left (g := id) fun row hrow => (hplain row hrow).reread_eq,
      List.map_id] at hwritten
    unfold Statement.after Statement.rowsAfter
    rw [heffect]
    exact hwritten

/-- How a store comes from another: by statements of a kind that ran one after the other. -/
def Reaches (kind : Statement → Prop) : Store → Store → Prop :=
  Relation.ReflTransGen fun store store' =>
    ∃ statement count, kind statement ∧ store.apply statement = .ok (count, store')

namespace Reaches

/-- What every statement of a kind leaves true stays true. -/
theorem invariant {I : Store → Prop} (h : start.Reaches kind store)
    (hstep : ∀ statement count store store', kind statement → I store →
      store.apply statement = .ok (count, store') → I store')
    (hstart : I start) : I store := by
  induction h with
  | refl => exact hstart
  | tail _ hrun ih =>
    obtain ⟨statement, count, hkind, hrun⟩ := hrun
    exact hstep statement count _ _ hkind ih hrun

theorem mono {other : Statement → Prop} (h : start.Reaches kind store)
    (hkind : ∀ statement, kind statement → other statement) : start.Reaches other store :=
  h.lift id fun _ _ ⟨statement, count, hstatement, hrun⟩ =>
    ⟨statement, count, hkind statement hstatement, hrun⟩

theorem step (h : start.Reaches kind store) (hstatement : kind statement)
    (hrun : store.apply statement = .ok (count, store')) : start.Reaches kind store' :=
  h.tail ⟨statement, count, hstatement, hrun⟩

/-- Statements with plain values leave every table readable. -/
theorem healthy (h : start.Reaches kind store)
    (hplain : ∀ statement, kind statement → ∀ v ∈ statement.values, v.Plain)
    (hstart : start.Healthy) : store.Healthy := by
  refine h.invariant (fun statement count store store' hkind hstore hrun => ?_) hstart
  obtain ⟨content, hcontent⟩ := hstore.exists_holds
  have hfields := hplain statement hkind
  obtain ⟨hquota, hreadable⟩ := apply_readable hcontent (fun v hv => (hfields v hv).sorted) hrun
  exact ⟨hquota, hreadable.mpr (.inr (Statement.depth_fields hfields))⟩

/-- What is true of the rows and left true by the statements is true of the rows after them. -/
theorem holdsPlain {J : (Table → List Record) → Prop} (h : start.Reaches kind store)
    (hplain : ∀ statement, kind statement → ∀ v ∈ statement.values, v.Plain)
    (hstep : ∀ statement content, kind statement → J content → J (statement.after content))
    (hstart : ∃ content, start.HoldsPlain content ∧ J content) :
    ∃ content, store.HoldsPlain content ∧ J content := by
  refine h.invariant (I := fun store => ∃ content, store.HoldsPlain content ∧ J content)
    (fun statement count store store' hkind hstore hrun => ?_) hstart
  obtain ⟨content, hcontent, hJ⟩ := hstore
  exact ⟨_, hcontent.apply (hplain statement hkind) hrun, hstep statement content hkind hJ⟩

/-- A batch comes by its statements, as far as it gets. -/
theorem applyFrom {statements : List Statement} (h : ∀ statement ∈ statements, kind statement)
    (index touched : Nat) (hstart : start.Reaches kind store) :
    start.Reaches kind (store.applyFrom index touched statements).2 := by
  induction statements generalizing index touched store with
  | nil => exact hstart
  | cons statement rest ih =>
    obtain ⟨hfirst, hrest⟩ := List.forall_mem_cons.mp h
    unfold Store.applyFrom
    cases hrun : store.apply statement with
    | error e => exact hstart
    | ok result => exact ih hrest _ _ (hstart.step hfirst hrun)

end Reaches
end Store
end Planner

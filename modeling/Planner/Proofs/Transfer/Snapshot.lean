import Planner.Proofs.Json.ReadBack
import Planner.Transfer

/-! The text of a snapshot, and the document that is read from it. -/
namespace Planner

open Json

theorem Table.ofSectionName?_sectionName (table : Table) :
    Table.ofSectionName? table.sectionName = some table := by
  cases table <;> decide

namespace Transfer

open Numeral (Ends)

variable {σ α : Type} {level : Nat} {content : Table → List Record}

/-- A field as it is written, and what reading it makes of a state. -/
structure Written (σ : Type) where
  key : String
  value : Json
  effect : σ → Except Fault σ

/-- What is made of a field that may come once. -/
def onceAs (name : String) (old : Option α) (result : Except Fault α) (put : α → σ) :
    Except Fault σ :=
  if old.isSome then .error (.duplicateField name) else result.map put

theorem once_reads {read : Reader α} {name : String} {old : Option α} {put : α → σ} {value : Json}
    {result : Except Fault α} (hgap : ∀ gap, Blank gap → ∀ s, read (gap ++ s) = read s)
    (h : Reads read (spaced .pretty level value) result) :
    Reads (once name old read put) (fieldBody .pretty level (name, value))
      (onceAs name old result put) := by
  intro rest hr
  have hvalue := h rest hr
  unfold once onceAs
  split_ifs
  · rfl
  · simp only [fieldBody, List.cons_append, readColon_cons, bind, Except.bind, List.append_assoc,
      hgap _ Spacing.pretty.colon_blank, hvalue]
    cases result <;> rfl

theorem readText_gap : ∀ gap, Blank gap → ∀ s, readText (gap ++ s) = readText s := by
  intro gap hg s
  unfold readText
  rw [skipSpace_append hg]

/-- What is read where rows were written. -/
def readRowsAs (rows : List Record) : Except Fault (Option (List Record)) :=
  if ∀ row ∈ rows, depthFields row ≤ fieldDepth then .ok (some (rows.map rereadFields))
  else .error .tooDeep

theorem mapM_readRecordAs (rows : List Record) :
    rows.mapM (readRecordAs fieldDepth) =
      if ∀ row ∈ rows, depthFields row ≤ fieldDepth then .ok (rows.map rereadFields)
      else .error .tooDeep := by
  induction rows with
  | nil => rfl
  | cons row rest ih =>
    rw [List.mapM_cons, ih]
    simp only [List.forall_mem_cons]
    by_cases hrow : depthFields row ≤ fieldDepth
    · rw [readRecordAs, if_pos hrow]
      by_cases hrest : ∀ row ∈ rest, depthFields row ≤ fieldDepth
      · rw [if_pos hrest, if_pos ⟨hrow, hrest⟩]
        rfl
      · rw [if_neg hrest, if_neg fun h => hrest h.2]
        rfl
    · have hboth : ¬ (depthFields row ≤ fieldDepth ∧ ∀ row ∈ rest, depthFields row ≤ fieldDepth) :=
        fun h => hrow h.1
      rw [readRecordAs, if_neg hrow, if_neg hboth]
      rfl

theorem readRow_reads {row : Record} (h : (Json.object row).Sorted) :
    Reads readRow (spaced .pretty level (.object row)) (readRecordAs fieldDepth row) := by
  intro rest hr
  rw [spaced, List.cons_append, readRow, skipSpace_cons (by decide)]
  exact readRecord_listed (Spacing.pretty.line_blank level) (fun _ hg _ => readValue_gap hg) h.1
    fun field hf => reads_spaced field.2 (sortedFields_iff.mp h.2 field hf) _ _

theorem readRows_gap : ∀ gap, Blank gap → ∀ s, readRows (gap ++ s) = readRows s := by
  intro gap hg s
  unfold readRows
  rw [skipSpace_append hg]

theorem readRows_cons (s : List Char) : readRows ('[' :: s) =
    (readItems readRow s).map fun (rows, s) => (some rows, s) := by
  have hlist : readRows ('[' :: s) = (do
      let (rows, s) ← readItems readRow s
      return (some rows, s)) := rfl
  rw [hlist]
  cases readItems readRow s <;> rfl

theorem readRows_reads {rows : List Record} (h : ∀ row ∈ rows, (Json.object row).Sorted) :
    Reads readRows (spaced .pretty level (.list (rows.map .object))) (readRowsAs rows) := by
  intro rest hr
  have hitems : readItems readRow (listed ']' _ _
      (rows.map fun row => spaced .pretty (level + 1) (.object row)) ++ rest) = _ :=
    readItems_listed (Spacing.pretty.line_blank (level + 1)) (Spacing.pretty.line_blank level)
      (fun row _ => starts_spaced _ _ _) fun row hrow => readRow_reads (h row hrow)
  rw [mapM_readRecordAs] at hitems
  have hmap : spacedItems .pretty (level + 1) (rows.map .object) =
      rows.map fun row => spaced .pretty (level + 1) (.object row) := by
    rw [spacedItems_eq_map, List.map_map]
    rfl
  rw [spaced, List.cons_append, hmap, readRows_cons, hitems, readRowsAs]
  split_ifs <;> rfl

/-- The fields that a structure is written with are read one by one. -/
theorem readFields_written {field : σ → String → Reader σ} {fields : List (Written σ)} {state : σ}
    {rest : List Char}
    (h : ∀ f ∈ fields, ∀ state,
      Reads (field state f.key) (fieldBody .pretty (level + 1) (f.key, f.value)) (f.effect state)) :
    readFields field state (listed '}' (newLine (level + 1)) (newLine level)
      (spacedFields .pretty (level + 1) (fields.map fun f => (f.key, f.value))) ++ rest) =
        (fields.foldlM (fun state (f : Written σ) => f.effect state) state).map (·, rest) := by
  have hmap : spacedFields .pretty (level + 1) (fields.map fun f => (f.key, f.value)) =
      fields.map (fieldText Written.key fun f => fieldBody .pretty (level + 1) (f.key, f.value)) := by
    rw [spacedFields_eq_map, List.map_map]
    rfl
  rw [hmap]
  exact readFields_listed (Spacing.pretty.line_blank (level + 1)) (Spacing.pretty.line_blank level) h

/-- No field of a table is deeper than a document can be read with. -/
def Shallow (content : Table → List Record) (table : Table) : Prop :=
  ∀ row ∈ content table, depthFields row ≤ fieldDepth

instance (table : Table) : Decidable (Shallow content table) :=
  inferInstanceAs (Decidable (∀ row ∈ content table, depthFields row ≤ fieldDepth))

/-- A section of a snapshot as it is written. -/
def sectionWritten (content : Table → List Record) (table : Table) :
    Written (List (Table × Option (List Record))) :=
  ⟨table.sectionName, .list ((content table).map .object),
    fun given => onceAs table.sectionName (given.lookup table) (readRowsAs (content table))
      fun rows => given ++ [(table, rows)]⟩

/-- A section of a snapshot as it is read. -/
def sectionRead (content : Table → List Record) (table : Table) : Table × Option (List Record) :=
  (table, some ((content table).map rereadFields))

variable {table : Table} {given : List (Table × Option (List Record))}

theorem sectionWritten_effect (h : given.lookup table = none) :
    (sectionWritten content table).effect given =
      if Shallow content table then .ok (given ++ [sectionRead content table])
      else .error .tooDeep := by
  simp only [sectionWritten, onceAs, h, Option.isSome_none, Bool.false_eq_true, if_false, readRowsAs]
  by_cases hs : Shallow content table
  · rw [if_pos hs, if_pos (show ∀ row ∈ content table, depthFields row ≤ fieldDepth from hs)]
    rfl
  · rw [if_neg hs, if_neg (show ¬ ∀ row ∈ content table, depthFields row ≤ fieldDepth from hs)]
    rfl

theorem foldlM_sectionWritten {tables : List Table} (hnodup : tables.Nodup)
    (hgiven : ∀ table ∈ tables, given.lookup table = none) :
    (tables.map (sectionWritten content)).foldlM (fun state f => f.effect state) given =
      if ∀ table ∈ tables, Shallow content table then
        .ok (given ++ tables.map (sectionRead content))
      else .error .tooDeep := by
  induction tables generalizing given with
  | nil => simp; rfl
  | cons table rest ih =>
    obtain ⟨hnot, hrest⟩ := List.nodup_cons.mp hnodup
    obtain ⟨hnone, hothers⟩ := List.forall_mem_cons.mp hgiven
    have hnext : ∀ other ∈ rest, (given ++ [sectionRead content table]).lookup other = none := by
      intro other hother
      have hne : other ≠ table := fun h => hnot (h ▸ hother)
      rw [List.lookup_append, hothers other hother]
      simp [sectionRead, List.lookup_cons, beq_false_of_ne hne]
    rw [List.map_cons, List.foldlM_cons, sectionWritten_effect hnone]
    simp only [List.forall_mem_cons]
    by_cases hfirst : Shallow content table
    · simp only [hfirst, if_true, true_and, bind, Except.bind, ih hrest hnext, List.map_cons,
        List.append_assoc, List.singleton_append]
    · simp only [hfirst, if_false, false_and, bind, Except.bind]

theorem sectionField_reads (hsorted : ∀ row ∈ content table, (Json.object row).Sorted) :
    Reads (sectionField given (sectionWritten content table).key)
      (fieldBody .pretty level
        ((sectionWritten content table).key, (sectionWritten content table).value))
      ((sectionWritten content table).effect given) := by
  simp only [sectionWritten, sectionField, Table.ofSectionName?_sectionName]
  exact once_reads readRows_gap (readRows_reads hsorted)

/-- The data of a snapshot. -/
def snapshotData (content : Table → List Record) : Sections :=
  ⟨Table.all.map fun table => (table, some (content table))⟩

/-- The data that is read from the text of a snapshot. -/
def dataRead (content : Table → List Record) : Sections :=
  ⟨Table.all.map (sectionRead content)⟩

theorem rows?_map {rows : Table → List Record} :
    (⟨Table.all.map fun table => (table, some (rows table))⟩ : Sections).rows? table =
      some (rows table) := by
  cases table <;> rfl

theorem readSections_gap : ∀ gap, Blank gap → ∀ s, readSections (gap ++ s) = readSections s := by
  intro gap hg s
  unfold readSections
  rw [skipSpace_append hg]

theorem readSections_cons (s : List Char) : readSections ('\x7b' :: s) =
    (readFields sectionField [] s).map fun (given, s) => (⟨given⟩, s) := by
  have hfields : readSections ('\x7b' :: s) = (do
      let (given, s) ← readFields sectionField [] s
      return (⟨given⟩, s)) := rfl
  rw [hfields]
  cases readFields sectionField [] s <;> rfl

theorem readSections_reads (hsorted : ∀ table, ∀ row ∈ content table, (Json.object row).Sorted) :
    Reads readSections (spaced .pretty level (snapshotData content).toJson)
      (if ∀ table ∈ Table.all, Shallow content table then .ok (dataRead content)
        else .error .tooDeep) := by
  intro rest hr
  have hjson : (snapshotData content).toJson =
      .object ((Table.all.map (sectionWritten content)).map fun f => (f.key, f.value)) := by
    simp only [Sections.toJson, snapshotData, rows?_map, Option.map_some]
    rfl
  have hfields : readFields sectionField [] (listed '}' (newLine (level + 1)) _
      (spacedFields _ _ ((Table.all.map (sectionWritten content)).map _)) ++ rest) = _ :=
    readFields_written
      (List.forall_mem_map.mpr fun table _ given => sectionField_reads (hsorted table))
  rw [foldlM_sectionWritten (by decide) fun _ _ => rfl] at hfields
  rw [hjson, spaced, List.cons_append, readSections_cons]
  refine (congrArg _ hfields).trans ?_
  split_ifs <;> rfl

/-- The document of a snapshot. -/
def snapshotDocument (now : Instant) (content : Table → List Record) : Document :=
  ⟨exportVersion, now.toText, snapshotData content⟩

theorem snapshot_eq_ok {store : Store} (h : ∀ table : Table, store.rows table.name = .ok (content table))
    (now : Instant) : snapshot now store = .ok (snapshotDocument now content) := by
  have hrows : ∀ table, store.query (.everything table) = .ok (content table) := by
    intro table
    simp only [Store.query, Store.tableRows, h, Select.everything, Select.evaluate, Select.sorted,
      Select.matching]
    rfl
  simp only [snapshot, sections, Table.all, List.mapM_cons, List.mapM_nil, hrows, bind, Except.bind]
  rfl

theorem snapshotText_eq_ok {store : Store}
    (h : ∀ table : Table, store.rows table.name = .ok (content table)) (now : Instant) :
    snapshotText now store = .ok (snapshotDocument now content).toJson.toPrettyText := by
  rw [snapshotText, snapshot_eq_ok h]
  rfl

/-- The fields of a document as they are written. -/
def documentWritten (now : Instant) (content : Table → List Record) : List (Written Draft) := [
  ⟨"version", .text exportVersion, fun draft =>
    onceAs "version" draft.version (.ok exportVersion) fun s => { draft with version := some s }⟩,
  ⟨"exportDate", .text now.toText, fun draft =>
    onceAs "exportDate" draft.exportDate (.ok now.toText)
      fun s => { draft with exportDate := some s }⟩,
  ⟨"data", (snapshotData content).toJson, fun draft =>
    onceAs "data" draft.data
      (if ∀ table ∈ Table.all, Shallow content table then .ok (dataRead content)
        else .error .tooDeep)
      fun data => { draft with data := some data }⟩]

theorem field_reads {now : Instant}
    (hsorted : ∀ table, ∀ row ∈ content table, (Json.object row).Sorted) :
    ∀ f ∈ documentWritten now content, ∀ draft, Reads (Draft.field draft f.key)
      (fieldBody .pretty level (f.key, f.value)) (f.effect draft) := by
  intro f hf draft
  simp only [documentWritten, List.mem_cons, List.not_mem_nil, or_false] at hf
  rcases hf with rfl | rfl | rfl
  · have hfield : draft.field "version" = once "version" draft.version readText
        fun s => { draft with version := some s } := by simp [Draft.field]
    dsimp only
    rw [hfield]
    exact once_reads readText_gap (readText_reads _)
  · have hfield : draft.field "exportDate" = once "exportDate" draft.exportDate readText
        fun s => { draft with exportDate := some s } := by simp [Draft.field]
    dsimp only
    rw [hfield]
    exact once_reads readText_gap (readText_reads _)
  · have hfield : draft.field "data" = once "data" draft.data readSections
        fun data => { draft with data := some data } := by simp [Draft.field]
    dsimp only
    rw [hfield]
    exact once_reads readSections_gap (readSections_reads hsorted)

theorem foldlM_documentWritten (now : Instant) :
    (documentWritten now content).foldlM (fun state f => f.effect state) Draft.empty =
      if ∀ table ∈ Table.all, Shallow content table then
        .ok ⟨some exportVersion, some now.toText, some (dataRead content)⟩
      else .error .tooDeep := by
  simp only [documentWritten, List.foldlM_cons, List.foldlM_nil, onceAs, Draft.empty,
    Option.isSome_none, Bool.false_eq_true, if_false, Except.map, bind, Except.bind]
  split_ifs <;> rfl

theorem readDocument_cons (s : List Char) : readDocument ('\x7b' :: s) = (do
    let (draft, s) ← readFields Draft.field Draft.empty s
    return (← draft.finish (.missingField "data"), s)) := rfl

theorem readDocument_reads (now : Instant)
    (hsorted : ∀ table, ∀ row ∈ content table, (Json.object row).Sorted) :
    Reads readDocument (spaced .pretty level (snapshotDocument now content).toJson)
      (if ∀ table ∈ Table.all, Shallow content table then
        .ok ⟨exportVersion, now.toText, dataRead content⟩
      else .error .tooDeep) := by
  intro rest hr
  have hjson : (snapshotDocument now content).toJson =
      .object ((documentWritten now content).map fun f => (f.key, f.value)) := rfl
  have hfields : readFields Draft.field Draft.empty (listed '}' (newLine (level + 1)) _
      (spacedFields _ _ ((documentWritten now content).map _)) ++ rest) = _ :=
    readFields_written (field_reads hsorted)
  rw [foldlM_documentWritten] at hfields
  rw [hjson, spaced, List.cons_append, readDocument_cons]
  refine (congrArg (· >>= _) hfields).trans ?_
  split_ifs <;> rfl

/-- A snapshot is read as its own document, unless a field of a row is too deep. -/
theorem documentOfText_snapshot (now : Instant)
    (hsorted : ∀ table, ∀ row ∈ content table, (Json.object row).Sorted) :
    documentOfText (snapshotDocument now content).toJson.toPrettyText =
      if ∀ table ∈ Table.all, Shallow content table then
        .ok ⟨exportVersion, now.toText, dataRead content⟩
      else .error .tooDeep := by
  have hreads : Reads readDocument (spaced .pretty 0 _) _ := readDocument_reads now hsorted
  rw [← renderPretty_eq_spaced] at hreads
  exact ofWhole_reads hreads

end Transfer
end Planner

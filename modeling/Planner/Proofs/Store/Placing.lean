import Planner.Proofs.CommandLine.Runs
import Planner.Proofs.Store.Footprint
import Planner.Proofs.Store.Keys

/-! Rows that are put among others by their natural key, and what is stored when the rows of a table
are written again. An upsert leaves one row with its key, and run again it changes nothing. -/
namespace Planner

namespace Record

variable {record fields : Record} {name key : String} {value : Json}

/-- The last value that is given for a name. -/
def lastOf? (name : String) (fields : List (String × Json)) : Option Json :=
  (fields.reverse.find? (·.1 = name)).map Prod.snd

theorem lastOf?_nil (name : String) : lastOf? name [] = none := rfl

theorem lastOf?_cons : lastOf? name ((key, value) :: fields) =
    (lastOf? name fields).or (if name = key then some value else none) := by
  unfold lastOf?
  rw [List.reverse_cons, List.find?_append]
  cases fields.reverse.find? (·.1 = name) with
  | some field => rfl
  | none => by_cases h : name = key <;> simp [h, eq_comm]

/-- Of the values that are set for a name the last counts. -/
theorem get?_foldl_set_eq (fields record : Record) (name : String) :
    Record.get? name (fields.foldl (fun record field => record.set field.1 field.2) record) =
      (lastOf? name fields).or (record.get? name) := by
  induction fields generalizing record with
  | nil => rfl
  | cons first rest ih =>
    obtain ⟨key, value⟩ := first
    rw [List.foldl_cons, ih, lastOf?_cons]
    by_cases h : name = key
    · subst h
      cases lastOf? name rest <;> simp [get?_set_self]
    · simp [h, get?_set_ne h]

theorem get?_ofFields (fields : Record) (name : String) :
    (ofFields fields).get? name = lastOf? name fields := by
  rw [ofFields, get?_foldl_set_eq]
  cases lastOf? name fields <;> rfl

end Record

namespace Store

open Json Outcome
open CommandLine (storeAfter)

variable {table : Table} {row old a b c : Record} {rows rows' : List Record} {store : Store}
  {key : List (String × Json)} {conflict : OnConflict} {columns : List String} {values : List Json}

/-! ### Tables that are written -/

/-- Rows that are written are read with their doubles read anew. -/
theorem tableRows_written (h : ∀ row ∈ rows, Storable row) :
    (store.written table rows).tableRows table = .ok (rows.map rereadFields) :=
  mapError_eq_ok.mpr (rows_written_self.trans (rowsOfText_storable _ h))

theorem text?_written_ne {name : String} (h : name ≠ table.name) :
    (store.written table rows).text? name = store.text? name :=
  show (store.rewritten table (some rows)).text? name = _ from text?_rewritten_ne h

theorem storable_of_tableRows (h : store.tableRows table = .ok rows) :
    ∀ row ∈ rows, Storable row := storable_of_rows (mapError_eq_ok.mp h)

theorem Storable.foldl_set {fields : List (String × Json)} (h : Storable row)
    (hfields : ∀ field ∈ fields, field.2.Fits rowDepth) :
    Storable (fields.foldl (fun row field => Record.set field.1 field.2 row) row) :=
  ⟨Record.ordered_foldl_set h.ordered,
    Record.foldl_set (fun _ value => value.Fits rowDepth) h.fields hfields⟩

theorem Storable.reread (h : Storable row) : Storable (rereadFields row) := by
  have hfits : Fits (rowDepth + 1) (.object row) := fits_object_iff.mpr h
  refine fits_object_iff.mp ⟨sorted_reread hfits.1, ?_⟩
  exact (depth_reread (.object row)).trans_le hfits.2

theorem Storable.iterate (h : Storable row) (n : Nat) : Storable (rereadFields^[n] row) :=
  Function.Iterate.rec _ h (fun _ => Storable.reread) n

/-- A double whose text is read as another double, whose text is read as the first. -/
def restless : Double := ⟨false, 0x3d270fecbd9fe753, by decide⟩

theorem reread_restless : restless.reread ≠ restless ∧ restless.reread.reread = restless := by
  decide +kernel

theorem putText_putText (key text text' : String) (texts : List (String × String)) :
    putText key text' (putText key text texts) = putText key text' texts := by
  induction texts with
  | nil => simp [putText]
  | cons head rest ih =>
    obtain ⟨k, old⟩ := head
    by_cases h : k = key
    · simp [putText, h]
    · simp [putText, h, ih]

/-- Of what is written to a table the last counts. -/
theorem written_written : (store.written table rows).written table rows' =
    store.written table rows' := by
  simp only [written, putText_putText]

theorem map_reread_eq_self_iff :
    rows.map rereadFields = rows ↔ ∀ row ∈ rows, rereadFields row = row := by
  have hmap : rows.map rereadFields = rows.map id ↔ ∀ row ∈ rows, rereadFields row = id row :=
    List.map_inj_left
  rwa [List.map_id] at hmap

theorem map_reread_eq_self (h : ∀ row ∈ rows, rereadFields row = row) :
    rows.map rereadFields = rows := map_reread_eq_self_iff.mpr h

/-- Plain rows are read as they were written. -/
theorem tableRows_plain (h : ∀ row ∈ rows, row.Plain) :
    (store.written table rows).tableRows table = .ok rows :=
  (tableRows_written fun row hrow => (h row hrow).storable).trans <|
    congrArg Except.ok (map_reread_eq_self fun row hrow => (h row hrow).reread_eq)

theorem Holds.written_plain {content : Table → List Record} (h : store.Holds content)
    (hrows : ∀ row ∈ rows, row.Plain) :
    (store.written table rows).Holds (Function.update content table rows) := by
  have hholds : (store.written table rows).Holds _ :=
    h.written fun row hrow => (hrows row hrow).storable
  rwa [map_reread_eq_self fun row hrow => (hrows row hrow).reread_eq] at hholds

/-! ### Rows that agree -/

/-- Whether two rows have every column of the natural key of their table, with the same values. -/
def Agree (table : Table) (a b : Record) : Prop :=
  ∀ column ∈ table.naturalKey, ∃ v ∈ a.get? column, ∃ w ∈ b.get? column, w.same v = true

instance (table : Table) (a b : Record) : Decidable (Agree table a b) :=
  inferInstanceAs (Decidable (∀ column ∈ table.naturalKey, ∃ v ∈ a.get? column,
    ∃ w ∈ b.get? column, w.same v = true))

/-- Whether no two rows agree on the natural key of their table. -/
def NoneAgree (table : Table) (rows : List Record) : Prop := rows.Pairwise fun a b => ¬ Agree table a b

instance (table : Table) (rows : List Record) : Decidable (NoneAgree table rows) :=
  inferInstanceAs (Decidable (rows.Pairwise fun a b => ¬ Agree table a b))

theorem Agree.symm (h : Agree table a b) : Agree table b a := by
  intro column hc
  obtain ⟨v, hv, w, hw, hsame⟩ := h column hc
  exact ⟨w, hw, v, hv, same_iff.mpr (same_iff.mp hsame).symm⟩

theorem Agree.trans (hab : Agree table a b) (hbc : Agree table b c) : Agree table a c := by
  intro column hc
  obtain ⟨v, hv, w, hw, hvw⟩ := hab column hc
  obtain ⟨w', hw', u, hu, hwu⟩ := hbc column hc
  obtain rfl : w = w' := Option.some.inj (hw.symm.trans hw')
  exact ⟨v, hv, u, hu, same_iff.mpr ((same_iff.mp hwu).trans (same_iff.mp hvw))⟩

/-- A row agrees with those that have the values of its natural key. -/
theorem agrees_keyed_iff (h : HasKey table row) :
    agrees (keyed table row) old = true ↔ Agree table row old := sameKey_iff h

/-- A row in the place of the one that it agrees with. -/
theorem NoneAgree.upsertRow (h : NoneAgree table rows) (hkey : HasKey table row) :
    NoneAgree table (upsertRow (keyed table row) row rows) := by
  have hagrees : ∀ old, agrees (keyed table row) old = true ↔ Agree table row old :=
    fun old => sameKey_iff hkey
  induction rows with
  | nil => exact List.pairwise_singleton _ _
  | cons old rest ih =>
    obtain ⟨hold, hrest⟩ := List.pairwise_cons.mp h
    unfold Store.upsertRow
    split_ifs with hsame
    · refine List.pairwise_cons.mpr ⟨fun other hother hagree => ?_, hrest⟩
      exact hold other hother (((hagrees old).mp hsame).symm.trans hagree)
    · refine List.pairwise_cons.mpr ⟨fun other hother hagree => ?_, ih hrest⟩
      rcases mem_of_mem_upsertRow hother with rfl | hmem
      · exact hsame ((hagrees old).mpr hagree.symm)
      · exact hold other hmem hagree

/-! ### Rows that are put among others -/

/-- How rows come from others by one that is put among them: it takes the place of the first that it
agrees with, or stands behind them all if there is none. -/
inductive Puts (table : Table) (row : Record) : List Record → List Record → Prop
  | replaced {before after : List Record} {old : Record}
    (others : ∀ other ∈ before, ¬ Agree table row other) (agree : Agree table row old) :
    Puts table row (before ++ old :: after) (before ++ row :: after)
  | added {rows : List Record} (others : ∀ other ∈ rows, ¬ Agree table row other) :
    Puts table row rows (rows ++ [row])

theorem puts_upsertRow (h : HasKey table row) (rows : List Record) :
    Puts table row rows (upsertRow (keyed table row) row rows) := by
  induction rows with
  | nil => exact .added (by simp)
  | cons first rest ih =>
    unfold upsertRow
    split_ifs with hfirst
    · exact @Puts.replaced table row [] rest first (by simp) ((agrees_keyed_iff h).mp hfirst)
    · rw [agrees_keyed_iff h] at hfirst
      generalize upsertRow (keyed table row) row rest = rest' at ih
      cases ih with
      | replaced hothers hagree =>
        exact @Puts.replaced table row (first :: _) _ _
          (List.forall_mem_cons.mpr ⟨hfirst, hothers⟩) hagree
      | added hothers => exact .added (List.forall_mem_cons.mpr ⟨hfirst, hothers⟩)

theorem Puts.mem (h : Puts table row rows rows') : row ∈ rows' := by
  cases h <;> simp

/-- Of rows of which no two agree only one agrees with a given row. -/
theorem NoneAgree.others {before after : List Record} (h : NoneAgree table (before ++ old :: after))
    (hagree : Agree table row old) : ∀ other ∈ before ++ after, ¬ Agree table row other := by
  obtain ⟨-, hlast, hbefore⟩ := List.pairwise_append.mp h
  intro other hother hagree'
  rcases List.mem_append.mp hother with hother | hother
  · exact hbefore other hother old (List.mem_cons_self ..) (hagree'.symm.trans hagree)
  · exact (List.pairwise_cons.mp hlast).1 other hother (hagree.symm.trans hagree')

/-- The row that was put is the one that has its key. -/
theorem Puts.filter_eq (h : Puts table row rows rows') (hkey : HasKey table row)
    (hnone : NoneAgree table rows) : rows'.filter (Agree table row ·) = [row] := by
  have hself : Agree table row row := (sameKey_iff hkey).mp (sameKey_self table row)
  have hothers : ∀ {others : List Record}, (∀ other ∈ others, ¬ Agree table row other) →
      others.filter (Agree table row ·) = [] :=
    fun hne => List.filter_eq_nil_iff.mpr fun other hother => by simpa using hne other hother
  cases h with
  | replaced _ hagree =>
    obtain ⟨hbefore, hafter⟩ := List.forall_mem_append.mp (hnone.others hagree)
    simp [hothers hbefore, hothers hafter, hself]
  | added hne => simp [hothers hne, hself]

/-- One row in the place of another with the same key leaves nothing of it. -/
theorem upsertRow_upsertRow (h : agrees key row = true) (other : Record) (rows : List Record) :
    upsertRow key other (upsertRow key row rows) = upsertRow key other rows := by
  induction rows with
  | nil => simp [upsertRow, h]
  | cons first rest ih =>
    by_cases hfirst : agrees key first
    · simp [upsertRow, hfirst, h]
    · simp [upsertRow, hfirst, ih]

/-! ### Insertions -/

/-- A row that minds no key is written behind the others. -/
theorem apply_append {fields : List (String × Json)} (hquota : store.quota = none)
    (hrows : store.tableRows table = .ok rows) :
    store.apply (.insertFields table fields .append) =
      .ok (1, store.written table (rows ++ [Record.ofFields fields])) := by
  have heffect : (Statement.insertFields table fields .append).effect rows =
      .ok (1, some (rows ++ [Record.ofFields fields])) := by
    rw [effect_insertFields, if_pos rfl]
  rw [apply_of_effect (show store.tableRows (Statement.insertFields table fields .append).table =
    .ok rows from hrows) heffect]
  exact congrArg (· >>= _) (setTableRows_healthy hquota)

/-! ### Upserts -/

/-- A row without some column of its natural key is refused for the first that it lacks. -/
theorem keyOf_missing {column : String} (h : table.naturalKey.find? (!row.has ·) = some column) :
    keyOf table row = .error (.missingNaturalKey table column) := by
  unfold keyOf
  generalize table.naturalKey = names at h ⊢
  induction names with
  | nil => cases h
  | cons first rest ih =>
    rw [List.mapM_cons]
    unfold Record.has at h ih
    cases hvalue : row.get? first with
    | none =>
      simp only [List.find?_cons, hvalue, Option.isSome_none, Bool.not_false, Option.some.injEq] at h
      simp [h, bind, Except.bind]
    | some value =>
      simp only [List.find?_cons, hvalue, Option.isSome_some, Bool.not_true] at h
      simp [ih h, bind, Except.bind]

/-- An upsert without some column of its natural key fails. -/
theorem apply_upsert_missing {column : String} (hconflict : conflict ≠ .append)
    (hrows : store.tableRows table = .ok rows)
    (h : table.naturalKey.find? (!(Record.ofFields (columns.zip values)).has ·) = some column) :
    store.apply (.insert table columns values conflict) =
      .error (.missingNaturalKey table column) := by
  simp only [apply, insert, hrows, bind, Except.bind, if_neg hconflict, keyOf_missing h]

/-- An upsert writes the rows with its own among them, unless a row with its key is to be kept. -/
theorem apply_upsert (hconflict : conflict ≠ .append) (hquota : store.quota = none)
    (hrows : store.tableRows table = .ok rows) (hvalue : Record.ofFields (columns.zip values) = row)
    (hkey : HasKey table row) : store.apply (.insert table columns values conflict) =
      if (∃ old ∈ rows, Agree table row old) ∧ conflict = .ignore then .ok (0, store)
      else .ok (1, store.written table (upsertRow (keyed table row) row rows)) := by
  have hany : rows.any (agrees (keyed table row)) = true ↔ ∃ old ∈ rows, Agree table row old := by
    simp only [List.any_eq_true, agrees_keyed_iff hkey]
  simp only [apply, insert, hrows, bind, Except.bind, if_neg hconflict, hvalue, keyOf_eq_keyed hkey,
    upserted_eq, hany]
  split_ifs
  · rfl
  · dsimp only
    rw [setTableRows_healthy hquota]
    rfl

theorem storable_upsertRow (hrows : store.tableRows table = .ok rows) (hrow : Storable row) :
    ∀ other ∈ upsertRow key row rows, Storable other :=
  forall_mem_upsertRow hrow (storable_of_tableRows hrows)

theorem tableRows_upserted (hrows : store.tableRows table = .ok rows) (hstorable : Storable row)
    (hrow : rereadFields row = row) (hothers : ∀ old ∈ rows, rereadFields old = old) :
    (store.written table (upsertRow (keyed table row) row rows)).tableRows table =
      .ok (upsertRow (keyed table row) row rows) :=
  (tableRows_written (storable_upsertRow hrows hstorable)).trans <|
    congrArg Except.ok (map_reread_eq_self (forall_mem_upsertRow hrow hothers))

/-- An upsert that was run finds its own row when it is run again. -/
theorem apply_upsert_again (hconflict : conflict ≠ .append) (hquota : store.quota = none)
    (hvalue : Record.ofFields (columns.zip values) = row) (hkey : HasKey table row)
    (hrows : (store.written table (upsertRow (keyed table row) row rows)).tableRows table =
      .ok (upsertRow (keyed table row) row rows)) :
    (store.written table (upsertRow (keyed table row) row rows)).apply
        (.insert table columns values conflict) =
      .ok (if conflict = .ignore then 0 else 1,
        store.written table (upsertRow (keyed table row) row rows)) := by
  have hself : Agree table row row := (sameKey_iff hkey).mp (sameKey_self table row)
  have hmem := (puts_upsertRow hkey rows).mem
  have hquota' : (store.written table (upsertRow (keyed table row) row rows)).quota = none := hquota
  rw [apply_upsert hconflict hquota' hrows hvalue hkey, upsertRow_upsertRow (sameKey_self table row),
    written_written]
  by_cases hignore : conflict = .ignore
  · rw [if_pos ⟨⟨row, hmem, hself⟩, hignore⟩, if_pos hignore]
  · rw [if_neg fun h => hignore h.2, if_neg hignore]

/-- A value that is stored as it is: not too deep, and with doubles that are read back as themselves. -/
def Lasts (value : Json) : Prop := value.Fits rowDepth ∧ ∀ x ∈ value.doubles, x.reread = x

theorem storable_ofFields {fields : List (String × Json)}
    (h : ∀ field ∈ fields, field.2.Fits rowDepth) : Storable (Record.ofFields fields) :=
  Storable.foldl_set ⟨List.Pairwise.nil, by simp⟩ h

theorem reread_ofFields {fields : List (String × Json)}
    (h : ∀ field ∈ fields, field.2.reread = field.2) :
    rereadFields (Record.ofFields fields) = Record.ofFields fields :=
  rereadFields_eq_self (Record.foldl_set (fun _ value => value.reread = value) (by simp) h)

/-- An upsert leaves one row with its key, which is its own row unless that is ignored for one that is
stored, and run again it changes nothing. No other table is written. -/
structure Upserts (statement : Statement) (table : Table) (conflict : OnConflict) (row : Record)
    (rows rows' : List Record) (count : Nat) (store store' : Store) : Prop where
  run : store.apply statement = .ok (count, store')
  written : store'.tableRows table = .ok rows'
  others : ∀ name ≠ table.name, store'.text? name = store.text? name
  ignored : (conflict = .ignore ∧ ∃ old ∈ rows, Agree table row old) → count = 0 ∧ store' = store
  placed : ¬ (conflict = .ignore ∧ ∃ old ∈ rows, Agree table row old) →
    count = 1 ∧ Puts table row rows rows' ∧ rows'.filter (Agree table row ·) = [row]
  noneAgree : NoneAgree table rows'
  again : store'.apply statement = .ok (if conflict = .ignore then 0 else 1, store')

/-- An upsert that lacks a column of the natural key is refused for the first such column and changes
nothing. Any other runs, and its own row is then the one with its key. Of a column that is given
repeatedly the last value counts. -/
structure UpsertsOnce (table : Table) (columns : List String) (values : List Json)
    (conflict : OnConflict) (row : Record) (rows : List Record) (store : Store) : Prop where
  lastCounts : ∀ column, row.get? column = Record.lastOf? column (columns.zip values)
  refused : ¬ HasKey table row → ∃ column, table.naturalKey.find? (!row.has ·) = some column ∧
    store.apply (.insert table columns values conflict) =
      .error (.missingNaturalKey table column) ∧
    storeAfter (.insert table columns values conflict) store = store
  runs : HasKey table row → ∃ count rows' store',
    Upserts (.insert table columns values conflict) table conflict row rows rows' count store store'

theorem exists_missing (h : ¬ HasKey table row) :
    ∃ column, table.naturalKey.find? (!row.has ·) = some column := by
  refine Option.isSome_iff_exists.mp (List.find?_isSome.mpr ?_)
  simpa [HasKey] using h

/-- An upsert that has its key runs where no two rows agree and all doubles are read back as
themselves. -/
theorem exists_upserts (hconflict : conflict ≠ .append) (hquota : store.quota = none)
    (hrows : store.tableRows table = .ok rows) (hnone : NoneAgree table rows)
    (hread : ∀ row ∈ rows, ReadsBack row) (hvalue : Record.ofFields (columns.zip values) = row)
    (hstorable : Storable row) (hreread : rereadFields row = row) (hkey : HasKey table row) :
    ∃ count rows' store', Upserts (.insert table columns values conflict) table conflict row rows
      rows' count store store' := by
  have happly := apply_upsert hconflict hquota hrows hvalue hkey
  by_cases hold : (∃ old ∈ rows, Agree table row old) ∧ conflict = .ignore
  · rw [if_pos hold] at happly
    refine ⟨0, rows, store, happly, hrows, fun _ _ => rfl, fun _ => ⟨rfl, rfl⟩,
      fun hplaced => absurd hold.symm hplaced, hnone, ?_⟩
    rw [happly, if_pos hold.2]
  · rw [if_neg hold] at happly
    have hputs := puts_upsertRow hkey rows
    have hrows' := tableRows_upserted hrows hstorable hreread fun old hold =>
      (hread old hold).reread_eq
    exact ⟨1, _, _, happly, hrows', fun _ => text?_written_ne,
      fun hignored => absurd hignored.symm hold,
      fun _ => ⟨rfl, hputs, hputs.filter_eq hkey hnone⟩, hnone.upsertRow hkey,
      apply_upsert_again hconflict hquota hvalue hkey hrows'⟩

/-- Where no two rows agree and all doubles are read back as themselves, an upsert stores its row
once. -/
theorem upsert_once (hconflict : conflict ≠ .append) (hquota : store.quota = none)
    (hrows : store.tableRows table = .ok rows) (hnone : NoneAgree table rows)
    (hread : ∀ row ∈ rows, ReadsBack row) (hvalues : ∀ value ∈ values, Lasts value)
    (hrow : Record.ofFields (columns.zip values) = row) :
    UpsertsOnce table columns values conflict row rows store := by
  have hfields : ∀ field ∈ columns.zip values, Lasts field.2 :=
    fun field hf => hvalues field.2 (List.of_mem_zip hf).2
  have hstorable : Storable row :=
    hrow ▸ storable_ofFields fun field hf => (hfields field hf).1
  have hreread : rereadFields row = row :=
    hrow ▸ reread_ofFields fun field hf => reread_eq_self (hfields field hf).2
  refine ⟨fun column => hrow ▸ Record.get?_ofFields _ column, fun hlacks => ?_,
    exists_upserts hconflict hquota hrows hnone hread hrow hstorable hreread⟩
  obtain ⟨column, hcolumn⟩ := exists_missing hlacks
  have hrefused : store.apply (.insert table columns values conflict) = _ :=
    apply_upsert_missing hconflict hrows (hrow ▸ hcolumn)
  exact ⟨column, hcolumn, hrefused, by rw [storeAfter, hrefused]⟩

/-- The entries of two habits for one day. -/
def sameDay : List Record :=
  [[("date", .text "2024-05-15"), ("habit_id", .text "read"), ("id", .text "1")],
   [("date", .text "2024-05-15"), ("habit_id", .text "swim"), ("id", .text "2")]]

def swimColumns : List String := ["id", "habit_id", "date", "effort", "habit_id"]

/-- Another entry of the second habit for the day, with the habit given twice. -/
def swimValues : List Json :=
  [.text "3", .text "read", .text "2024-05-15",
    .number (.double ⟨false, 0x3FE0000000000000, by decide⟩), .text "swim"]

theorem upsert_once_swim : ∃ count rows' store',
    (empty.written .habitLogs sameDay).apply
      (.insert .habitLogs swimColumns swimValues .replace) = .ok (count, store') ∧
    store'.tableRows .habitLogs = .ok rows' ∧ NoneAgree .habitLogs rows' ∧
    store'.apply (.insert .habitLogs swimColumns swimValues .replace) = .ok (1, store') := by
  have hplain : ∀ row ∈ sameDay, row.Plain := by
    simp only [sameDay, List.forall_mem_cons]
    exact ⟨⟨by unfold Record.Ordered; decide, by simp [plain_text]⟩,
      ⟨by unfold Record.Ordered; decide, by simp [plain_text]⟩, by simp⟩
  have hrows : (empty.written .habitLogs sameDay).tableRows .habitLogs = .ok sameDay :=
    tableRows_plain hplain
  have hread : ∀ row ∈ sameDay, ReadsBack row := by
    simp [sameDay, ReadsBack, doublesFields, doubles]
  have hvalues : ∀ value ∈ swimValues, Lasts value := by
    have hfits : ∀ value ∈ swimValues, value.Fits rowDepth := by
      simp [swimValues, Fits, Sorted, depth]
    have hdoubles : ∀ value ∈ swimValues, ∀ x ∈ value.doubles, x.reread = x := by decide +kernel
    exact fun value hvalue => ⟨hfits value hvalue, hdoubles value hvalue⟩
  have honce := upsert_once (show OnConflict.replace ≠ .append by decide) rfl hrows (by decide) hread
    hvalues (show Record.ofFields (swimColumns.zip swimValues) = _ from rfl)
  obtain ⟨count, rows', store', hupserts⟩ := honce.runs (by decide)
  exact ⟨count, rows', store', hupserts.run, hupserts.written, hupserts.noneAgree, hupserts.again⟩

end Store
end Planner

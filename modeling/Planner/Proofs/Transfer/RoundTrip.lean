import Planner.Proofs.Transfer.Restore
import Planner.Proofs.Transfer.Snapshot

/-! A snapshot restored into another planner: which can be, and what the tables hold then. -/
namespace Planner.Transfer

open Json Store

variable {store : Store} {w : Workspace} {source target : Table → List Record} {table : Table}

/-- A row that can be restored from a snapshot: it has its natural key, and lists and objects do
not stand deeper in its fields than a document can be read with. -/
def Restorable (table : Table) (row : Record) : Prop :=
  HasKey table row ∧ ∀ field ∈ row, field.2.depth ≤ 123

/-- How many rows there are in all tables. -/
def totalRows (content : Table → List Record) : Nat :=
  (Table.all.map fun table => (content table).length).sum

/-- Whether a row has none of the keys of the given rows. -/
def otherKey (table : Table) (rows : List Record) (row : Record) : Bool :=
  rows.all fun other => decide (¬ SameKey table other row)

theorem forall_restorable_iff : (∀ table, ∀ row ∈ source table, Restorable table row) ↔
    (∀ table ∈ Table.all, Shallow source table) ∧
      ∀ table, ∀ row ∈ source table, HasKey table row := by
  constructor
  · exact fun h => ⟨fun table _ row hrow => depthFields_le_iff.mpr (h table row hrow).2,
      fun table row hrow => (h table row hrow).1⟩
  · exact fun h table row hrow => ⟨h.2 table row hrow,
      depthFields_le_iff.mp (h.1 table (Table.mem_all table) row hrow)⟩

theorem rowsOf_dataRead (h : ∀ row ∈ source table, ReadsBack row) :
    rowsOf (dataRead source) table = source table := by
  have hrows : (dataRead source).rows? table = some ((source table).map rereadFields) := rows?_map
  rw [rowsOf, hrows, Option.getD_some]
  exact (List.map_congr_left (g := id) fun row hrow => (h row hrow).reread_eq).trans (List.map_id _)

/-- What the tables hold when a snapshot was restored: settings are set, other rows replaced. -/
def merged (source target : Table → List Record) (table : Table) : List Record :=
  if table = .settings then upsertAll table (target table) (source table) else source table

theorem foldl_restoreRow (h : table ≠ .settings) (stored rows : List Record) :
    rows.foldl (restoreRow table) stored = stored ++ rows := by
  induction rows generalizing stored with
  | nil => simp
  | cons row rest ih =>
    rw [List.foldl_cons, ih, restoreRow, if_neg h, List.append_assoc, List.singleton_append]

theorem restored_dataRead (hsource : ∀ table, ∀ row ∈ source table, ReadsBack row)
    (htarget : ∀ row ∈ target .settings, ReadsBack row) :
    restored (dataRead source) target = merged source target := by
  funext table
  have hrows := rowsOf_dataRead (hsource table)
  unfold merged
  split_ifs with h
  · subst h
    rw [restored_settings, replaced, if_pos rfl, hrows]
    rw [hrows]
    intro row hrow
    exact (List.mem_append.mp hrow).elim (htarget row) (hsource _ row)
  · rw [restored, if_neg h, hrows, refill_readsBack (by simp) (hsource table), foldl_restoreRow h,
      List.nil_append]

section Snapshot

variable (hsource : ∀ table : Table, store.rows table.name = .ok (source table))
  (hdoubles : ∀ table, ∀ row ∈ source table, ReadsBack row) (now : Instant)

include hsource

/-- The text of a snapshot. -/
theorem exists_snapshotText : ∃ text, snapshotText now store = .ok text ∧
    documentOfText text = if ∀ table ∈ Table.all, Shallow source table then
      .ok ⟨exportVersion, now.toText, dataRead source⟩ else .error .tooDeep := by
  refine ⟨_, snapshotText_eq_ok hsource now, documentOfText_snapshot now fun table row hrow => ?_⟩
  exact (storable_of_rows (hsource table) row hrow).sorted

include hdoubles

theorem restoreText_eq_ok {text : String} (htext : snapshotText now store = .ok text)
    (htarget : w.store.Holds target) (hsettings : ∀ row ∈ target .settings, ReadsBack row)
    (h : ∀ table, ∀ row ∈ source table, Restorable table row) :
    ∃ store', restoreText text w = .ok (totalRows source) { w with store := store' } ∧
      store'.Holds (merged source target) := by
  obtain ⟨hshallow, hkey⟩ := forall_restorable_iff.mp h
  obtain ⟨text', htext', hdocument⟩ := exists_snapshotText hsource now
  obtain rfl := Except.ok.inj (htext.symm.trans htext')
  have hrows : ∀ table, rowsOf (dataRead source) table = source table :=
    fun table => rowsOf_dataRead (hdoubles table)
  have hkeyed : Keyed (dataRead source) := fun table row hrow => hkey table row (hrows table ▸ hrow)
  have hstorable : ∀ table, ∀ row ∈ rowsOf (dataRead source) table, Storable row :=
    fun table row hrow => storable_of_rows (hsource table) row (hrows table ▸ hrow)
  obtain ⟨store', hrun, hstore⟩ := restore_eq_ok
    ⟨exportVersion, now.toText, dataRead source⟩ htarget hkeyed hstorable
  rw [restored_dataRead hdoubles hsettings] at hstore
  have hcount : rowCount (dataRead source) = totalRows source := by
    simp only [rowCount, totalRows, hrows]
  refine ⟨store', ?_, hstore⟩
  rw [if_pos hshallow] at hdocument
  simp only [restoreText, hdocument, hrun, hcount]

theorem restoreText_eq_error {text : String} (htext : snapshotText now store = .ok text)
    (w : Workspace) (h : ¬ ∀ table, ∀ row ∈ source table, Restorable table row) :
    ∃ e, restoreText text w = .error e w ∧ e.Refused := by
  rw [forall_restorable_iff] at h
  obtain ⟨text', htext', hdocument⟩ := exists_snapshotText hsource now
  obtain rfl := Except.ok.inj (htext.symm.trans htext')
  unfold restoreText
  rw [hdocument]
  split_ifs with hshallow
  · have hkeyed : ¬ Keyed (dataRead source) := by
      intro hkeyed
      refine h ⟨hshallow, fun table row hrow => hkeyed table row ?_⟩
      rwa [rowsOf_dataRead (hdoubles table)]
    obtain ⟨table, index, column, herror⟩ := restore_eq_error
      ⟨exportVersion, now.toText, dataRead source⟩ hkeyed w
    exact ⟨_, herror, trivial⟩
  · exact ⟨_, rfl, trivial⟩

end Snapshot

theorem filter_merged : (merged source target .settings).filter
    (otherKey .settings (source .settings)) =
      (target .settings).filter (otherKey .settings (source .settings)) := by
  rw [merged, if_pos rfl]
  refine filter_upsertAll (fun row hrow old hsame => ?_) _
  exact List.all_eq_false.mpr ⟨row, hrow, by simpa using hsame⟩

theorem merged_self (hkey : ∀ row ∈ source .settings, HasKey .settings row)
    (hdistinct : KeysDistinct .settings (source .settings)) : merged source source = source := by
  funext table
  unfold merged
  split_ifs with h
  · subst h
    exact upsertAll_self hkey hdistinct
  · rfl

/-- The data tables hold the rows of a source, and the settings its settings among others; its own rows
are left as they are. -/
structure Refills (source target result : Table → List Record) : Prop where
  tables : ∀ table, table ≠ .settings → result table = source table
  settings : KeysDistinct .settings (source .settings) →
    ∀ row ∈ source .settings, row ∈ result .settings
  otherSettings : KeysDistinct .settings (source .settings) →
    (result .settings).filter (otherKey .settings (source .settings)) =
      (target .settings).filter (otherKey .settings (source .settings))
  same : KeysDistinct .settings (source .settings) → target = source → result = source

/-- The text of a source can be restored exactly when each of its rows can; where it is refused,
nothing changes. -/
structure Carries (text : String) (source target : Table → List Record) (w : Workspace) : Prop where
  accepted_iff : (∃ count w', restoreText text w = .ok count w') ↔
    ∀ table, ∀ row ∈ source table, Restorable table row
  refused : ∀ e w', restoreText text w = .error e w' → e.Refused ∧ w' = w
  counted : ∀ count w', restoreText text w = .ok count w' → count = totalRows source
  refilled : ∀ count w', restoreText text w = .ok count w' →
    ∃ result, w'.store.Holds result ∧ Refills source target result

/-- A snapshot carries what it was taken of. -/
theorem restoreText_snapshotText
    (hsource : ∀ table : Table, store.rows table.name = .ok (source table))
    (htarget : w.store.Holds target) (hdoubles : ∀ table, ∀ row ∈ source table, ReadsBack row)
    (hsettings : ∀ row ∈ target .settings, ReadsBack row) (now : Instant) :
    ∃ text, snapshotText now store = .ok text ∧ Carries text source target w := by
  obtain ⟨text, htext, -⟩ := exists_snapshotText hsource now
  refine ⟨text, htext, ?_⟩
  by_cases h : ∀ table, ∀ row ∈ source table, Restorable table row
  · have hkey : ∀ row ∈ source .settings, HasKey .settings row := fun row hrow =>
      (h .settings row hrow).1
    obtain ⟨store', hrun, hstore⟩ := restoreText_eq_ok hsource hdoubles now htext htarget hsettings h
    constructor <;> rw [hrun]
    · exact ⟨fun _ => h, fun _ => ⟨_, _, rfl⟩⟩
    · rintro e w' ⟨⟩
    · rintro count w' ⟨⟩
      rfl
    · rintro count w' ⟨⟩
      refine ⟨_, hstore, fun table htable => if_neg htable, fun hdistinct => ?_,
        fun _ => filter_merged, fun hdistinct => ?_⟩
      · exact forall_mem_upsertAll hkey hdistinct (target .settings)
      · rintro rfl
        exact merged_self hkey hdistinct
  · obtain ⟨e, hrun, he⟩ := restoreText_eq_error hsource hdoubles now htext w h
    constructor <;> rw [hrun]
    · refine ⟨?_, fun hall => absurd hall h⟩
      rintro ⟨count, w', ⟨⟩⟩
    · rintro e w' ⟨⟩
      exact ⟨he, rfl⟩
    · rintro count w' ⟨⟩
    · rintro count w' ⟨⟩

/-- One and a half. -/
def threeHalves : Double := ⟨false, 0x3FF8000000000000, by decide⟩

/-- A task with a double that is read back as itself. -/
def sizedTask : Record := [("id", .text "a"), ("size", .number (.double threeHalves))]

theorem storable_sizedTask : Storable sizedTask where
  ordered := List.pairwise_pair.mpr (show "id" < "size" by decide)
  fields := by
    simp only [sizedTask, List.forall_mem_cons]
    exact ⟨fits_text _ _, ⟨trivial, Nat.zero_le _⟩, by simp⟩

theorem readsBack_sizedTask : ReadsBack sizedTask := by
  have hx : threeHalves.reread = threeHalves := by decide +kernel
  simpa [ReadsBack, sizedTask, doublesFields, doubles] using hx

theorem restoreText_sizedTask :
    ∃ text, snapshotText ⟨0⟩ (Store.empty.written .tasks [sizedTask]) = .ok text ∧
      ∃ count w', restoreText text blank = .ok count w' := by
  have hwritten : (Store.empty.written .tasks [sizedTask]).Holds _ :=
    holds_empty.written (List.forall_mem_singleton.mpr storable_sizedTask)
  have hcontent : ∀ P : Table → Record → Prop, P .tasks (rereadFields sizedTask) →
      ∀ table, ∀ row ∈ Function.update (fun _ => []) Table.tasks
        ([sizedTask].map rereadFields) table, P table row := by
    intro P hP table row hrow
    by_cases h : table = .tasks
    · subst h
      rw [Function.update_self] at hrow
      simpa [List.mem_singleton.mp hrow] using hP
    · simp [Function.update_of_ne h] at hrow
  have hreads := readsBack_sizedTask
  rw [← hreads.reread_eq] at hreads
  obtain ⟨text, htext, hcarries⟩ := restoreText_snapshotText (w := blank) hwritten.rows holds_empty
    (hcontent (fun _ => ReadsBack) hreads) (by simp) ⟨0⟩
  refine ⟨text, htext, hcarries.accepted_iff.mpr (hcontent Restorable ?_)⟩
  rw [readsBack_sizedTask.reread_eq]
  exact ⟨by decide, by decide⟩

end Planner.Transfer

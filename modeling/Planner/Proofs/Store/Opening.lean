import Planner.Proofs.Store.Footprint
import Planner.Proofs.Store.Prepare
import Planner.Proofs.Store.Writing

/-! A store that is opened: which texts are written then, and that nothing is left to write when it
is opened once more. -/
namespace Planner.Store

variable {store store' : Store} {tables : List Table} {table : Table} {key : String}
  {rows : List Record} {statement : Statement} {count : Nat} {kind : Statement → Prop}

/-! ### Missing tables -/

/-- The first table has a text or gets one before the others are looked at, unless the host
refuses. -/
theorem createMissing_cons (store : Store) (table : Table) (tables : List Table) :
    (∃ created : Store, (created.text? table.name).isSome ∧
      store.createMissing (table :: tables) = created.createMissing tables ∧
      (created = store ∨
        store.text? table.name = none ∧ store.setRows table.name [] = .ok created)) ∨
    ∃ e, store.setRows table.name [] = .error e ∧
      store.createMissing (table :: tables) = (.error e, store) := by
  cases htable : store.text? table.name with
  | some text =>
    have hsome := Option.isSome_of_eq_some htable
    exact .inl ⟨store, hsome, by rw [createMissing, if_pos hsome], .inl rfl⟩
  | none =>
    have hmissing : ¬ (store.text? table.name).isSome := by simp [htable]
    cases hset : store.setRows table.name [] with
    | error e => exact .inr ⟨e, rfl, by rw [createMissing, if_neg hmissing, hset]⟩
    | ok created =>
      refine .inl ⟨created, ?_, by rw [createMissing, if_neg hmissing, hset], .inr ⟨rfl, rfl⟩⟩
      rw [text?_setRows hset, if_pos rfl]
      rfl

/-- The text of a missing table is written, unless the host refuses, and no other one. -/
theorem text?_createMissing (store : Store) (tables : List Table) (key : String) :
    (store.createMissing tables).2.text? key = store.text? key ∨
      store.text? key = none ∧ (∃ table ∈ tables, table.name = key) ∧
        (store.createMissing tables).2.text? key = some (textOfRows []) := by
  induction tables generalizing store with
  | nil => exact .inl rfl
  | cons table rest ih =>
    obtain ⟨created, -, hcreate, hstep⟩ | ⟨e, -, hcreate⟩ := createMissing_cons store table rest
    · rw [hcreate]
      have hsame : created.text? key = store.text? key ∨ store.text? key = none ∧
          key = table.name ∧ created.text? key = some (textOfRows []) := by
        obtain rfl | ⟨hnone, hset⟩ := hstep
        · exact .inl rfl
        · have htext := text?_setRows hset key
          split_ifs at htext with hkey
          · exact .inr ⟨hkey ▸ hnone, hkey, htext⟩
          · exact .inl htext
      obtain hsame | ⟨hnone, hkey, htext⟩ := hsame
      · rw [← hsame]
        refine (ih created).imp_right fun ⟨hnone, ⟨other, hmem, hname⟩, htext⟩ => ?_
        exact ⟨hnone, ⟨other, List.mem_cons_of_mem _ hmem, hname⟩, htext⟩
      · refine .inr ⟨hnone, ⟨table, List.mem_cons_self, hkey.symm⟩, ?_⟩
        obtain hkept | ⟨-, -, hwritten⟩ := ih created
        · rw [hkept, htext]
        · exact hwritten
    · exact .inl (congrArg (·.2.text? key) hcreate)

theorem isSome_text?_createMissing (h : (store.text? key).isSome) (tables : List Table) :
    ((store.createMissing tables).2.text? key).isSome := by
  obtain htext | ⟨hnone, -⟩ := text?_createMissing store tables key
  · rwa [htext]
  · rw [hnone] at h
    cases h

theorem createMissing_eq_self (h : ∀ table ∈ tables, (store.text? table.name).isSome) :
    store.createMissing tables = (.ok (), store) := by
  induction tables with
  | nil => rfl
  | cons table rest ih =>
    obtain ⟨htable, hrest⟩ := List.forall_mem_cons.mp h
    rw [createMissing, if_pos htable, ih hrest]

/-- Every table has a text when none was refused. -/
theorem stored_createMissing (h : store.createMissing tables = (.ok (), store')) :
    ∀ table ∈ tables, (store'.text? table.name).isSome := by
  induction tables generalizing store with
  | nil => simp
  | cons table rest ih =>
    obtain ⟨created, hsome, hcreate, -⟩ | ⟨e, -, hcreate⟩ := createMissing_cons store table rest
    · have hrun := hcreate.symm.trans h
      refine List.forall_mem_cons.mpr ⟨?_, ih hrun⟩
      have hkept := isSome_text?_createMissing hsome rest
      rwa [hrun] at hkept
    · cases hcreate.symm.trans h

/-- What was refused once is refused again, and there is nothing else left to write. -/
theorem createMissing_again (store : Store) (tables : List Table) :
    (store.createMissing tables).2.createMissing tables = store.createMissing tables := by
  induction tables generalizing store with
  | nil => rfl
  | cons table rest ih =>
    obtain ⟨created, hsome, hcreate, -⟩ | ⟨e, -, hcreate⟩ := createMissing_cons store table rest
    · rw [hcreate, createMissing, if_pos (isSome_text?_createMissing hsome rest), ih]
    · rw [hcreate, hcreate]

theorem createMissing_takesWrites (h : store.quota = none) (tables : List Table) :
    ∃ created, store.createMissing tables = (.ok (), created) ∧ created.quota = none := by
  induction tables generalizing store with
  | nil => exact ⟨store, rfl, h⟩
  | cons table rest ih =>
    obtain ⟨created, -, hcreate, hstep⟩ | ⟨e, hset, -⟩ := createMissing_cons store table rest
    · rw [hcreate]
      obtain rfl | ⟨-, hset⟩ := hstep
      · exact ih h
      · cases hset.symm.trans (setRows_healthy h)
        have hwritten : (store.written table []).quota = none := h
        exact ih hwritten
    · cases hset.symm.trans (setRows_healthy h)

/-! ### Settings -/

theorem rowsOfText_empty (name : String) : rowsOfText name (textOfRows []) = .ok [] :=
  rowsOfText_textOfRows name (by simp)

/-- The default settings are read as they are written. -/
theorem rowsOfText_defaultSettings (name : String) :
    rowsOfText name (textOfRows defaultSettings) = .ok defaultSettings := by
  rw [rowsOfText_storable name fun row hrow => (plain_defaultSettings row hrow).storable,
    List.map_congr_left (g := id) fun row hrow => (plain_defaultSettings row hrow).reread_eq,
    List.map_id]

/-- Whether the settings can be read and have rows. -/
def Furnished (store : Store) : Prop :=
  ∃ row rest, store.rows Table.settings.name = .ok (row :: rest)

instance (store : Store) : Decidable store.Furnished :=
  match hrows : store.rows Table.settings.name with
  | .ok (row :: rest) => isTrue ⟨row, rest, hrows⟩
  | .ok [] => isFalse fun ⟨_, _, h⟩ => by cases hrows.symm.trans h
  | .error _ => isFalse fun ⟨_, _, h⟩ => by cases hrows.symm.trans h

/-- Settings are only seeded where they were read and have no rows, unless the host refuses. -/
theorem seedSettings_cases (store : Store) :
    (store.Furnished ∧ store.seedSettings = (.ok (), store)) ∨
    (∃ e, store.seedSettings = (.error e, store)) ∨
    store.rows Table.settings.name = .ok [] ∧ ∃ seeded,
      store.setRows Table.settings.name defaultSettings = .ok seeded ∧
        store.seedSettings = (.ok (), seeded) := by
  unfold seedSettings
  cases hrows : store.rows Table.settings.name with
  | error e => exact .inr (.inl ⟨e, rfl⟩)
  | ok rows =>
    cases rows with
    | cons row rest => exact .inl ⟨⟨row, rest, hrows⟩, rfl⟩
    | nil =>
      cases store.setRows Table.settings.name defaultSettings with
      | error e => exact .inr (.inl ⟨e, rfl⟩)
      | ok seeded => exact .inr (.inr ⟨rfl, seeded, rfl, rfl⟩)

theorem seedSettings_furnished (h : store.Furnished) : store.seedSettings = (.ok (), store) := by
  obtain ⟨row, rest, hrows⟩ := h
  simp only [seedSettings, hrows]

theorem furnished_seeded (hset : store.setRows Table.settings.name defaultSettings = .ok store') :
    store'.Furnished :=
  ⟨_, _, (rows_setRows_self hset).trans (rowsOfText_defaultSettings _)⟩

theorem seedSettings_again (store : Store) :
    store.seedSettings.2.seedSettings = store.seedSettings := by
  obtain ⟨-, hseed⟩ | ⟨e, hseed⟩ | ⟨-, seeded, hset, hseed⟩ := seedSettings_cases store
  · rw [hseed, hseed]
  · rw [hseed, hseed]
  · rw [hseed, seedSettings_furnished (furnished_seeded hset)]

theorem text?_seedSettings (store : Store) (key : String) :
    store.seedSettings.2.text? key = store.text? key ∨ key = Table.settings.name ∧
      store.rows Table.settings.name = .ok [] ∧
        store.seedSettings.2.text? key = some (textOfRows defaultSettings) := by
  obtain ⟨-, hseed⟩ | ⟨e, hseed⟩ | ⟨hrows, seeded, hset, hseed⟩ := seedSettings_cases store
  · exact .inl (congrArg (·.2.text? key) hseed)
  · exact .inl (congrArg (·.2.text? key) hseed)
  · rw [hseed, text?_setRows hset]
    split_ifs with hkey
    · exact .inr ⟨hkey, hrows, rfl⟩
    · exact .inl rfl

theorem isSome_text?_seedSettings (h : (store.text? key).isSome) :
    (store.seedSettings.2.text? key).isSome := by
  obtain htext | ⟨-, -, htext⟩ := text?_seedSettings store key
  · rwa [htext]
  · rw [htext]
    rfl

/-! ### Opening -/

/-- A missing table has no rows, before and after it is created. -/
theorem rows_createMissing (store : Store) (tables : List Table) (name : String) :
    (store.createMissing tables).2.rows name = store.rows name := by
  obtain htext | ⟨hnone, -, htext⟩ := text?_createMissing store tables name
  · simp only [Store.rows, htext]
  · simp only [Store.rows, htext, hnone, rowsOfText_empty]

theorem prepare_of_created (h : store.createMissing Table.all = (.ok (), store')) :
    store.prepare = (store'.seedSettings.1.mapError .store, store'.seedSettings.2) := by
  rw [prepare, h]

/-- A store that was opened is opened by reading: the result is the same, and nothing changes. -/
theorem prepare_again (store : Store) : store.prepare.2.prepare = store.prepare := by
  have hagain := createMissing_again store Table.all
  cases hcreate : store.createMissing Table.all with
  | mk result created =>
    rw [hcreate] at hagain
    cases result with
    | error e =>
      have hprepare : store.prepare = (.error (.store e), created) := by rw [prepare, hcreate]
      rw [hprepare, prepare, hagain]
    | ok =>
      rw [prepare_of_created hcreate]
      have hstored := stored_createMissing hcreate
      have hcreated : created.seedSettings.2.createMissing Table.all =
          (.ok (), created.seedSettings.2) :=
        createMissing_eq_self fun table hmem => isSome_text?_seedSettings (hstored table hmem)
      rw [prepare_of_created hcreated, seedSettings_again]

/-- What is written when a store is opened, and which text it has then: that of no rows for a table
that was missing, and that of the default settings where there were none. -/
theorem text?_prepare (store : Store) (key : String) :
    store.prepare.2.text? key = store.text? key ∨
    (store.text? key = none ∧ (∃ table : Table, table.name = key) ∧
      store.prepare.2.text? key = some (textOfRows [])) ∨
    key = Table.settings.name ∧ store.rows Table.settings.name = .ok [] ∧
      store.prepare.2.text? key = some (textOfRows defaultSettings) := by
  have hcreated := text?_createMissing store Table.all key
  have hrows := rows_createMissing store Table.all Table.settings.name
  cases hcreate : store.createMissing Table.all with
  | mk result created =>
    rw [hcreate] at hcreated hrows
    have hmissing : created.text? key = store.text? key ∨ store.text? key = none ∧
        (∃ table : Table, table.name = key) ∧ created.text? key = some (textOfRows []) :=
      hcreated.imp_right fun ⟨hnone, ⟨table, _, hname⟩, htext⟩ => ⟨hnone, ⟨table, hname⟩, htext⟩
    cases result with
    | error e =>
      have hprepare : store.prepare = (.error (.store e), created) := by rw [prepare, hcreate]
      rw [hprepare]
      exact hmissing.imp_right .inl
    | ok =>
      rw [prepare_of_created hcreate]
      obtain htext | ⟨hkey, hempty, htext⟩ := text?_seedSettings created key
      · rw [htext]
        exact hmissing.imp_right .inl
      · exact .inr (.inr ⟨hkey, hrows ▸ hempty, htext⟩)

/-- Whether a store takes every write and every table has a text. -/
structure Opened (store : Store) : Prop where
  takesWrites : store.quota = none
  stored : ∀ table : Table, (store.text? table.name).isSome

namespace Opened

theorem apply (h : store.Opened) (hrun : store.apply statement = .ok (count, store')) :
    store'.Opened := by
  obtain ⟨written, rfl⟩ := exists_rewritten h.takesWrites hrun
  exact ⟨quota_rewritten.trans h.takesWrites, fun table => isSome_text?_rewritten (h.stored table)⟩

theorem reaches (h : store.Opened) (hreaches : store.Reaches kind store') : store'.Opened :=
  hreaches.invariant (fun _ _ _ _ _ hstore hrun => hstore.apply hrun) h

theorem prepare_eq (h : store.Opened) :
    store.prepare = (store.seedSettings.1.mapError .store, store.seedSettings.2) :=
  prepare_of_created (createMissing_eq_self fun table _ => h.stored table)

/-- An open store with settings is opened by reading. -/
theorem prepare_furnished (h : store.Opened) (hfurnished : store.Furnished) :
    store.prepare = (.ok (), store) := by
  rw [h.prepare_eq, seedSettings_furnished hfurnished]
  rfl

/-- An open store without settings gets the default ones when it is opened, and nothing else. -/
theorem prepare_empty (h : store.Opened) (hrows : store.rows Table.settings.name = .ok []) :
    store.prepare = (.ok (), store.written .settings defaultSettings) := by
  simp only [h.prepare_eq, seedSettings, hrows, setRows_healthy h.takesWrites]
  rfl

theorem prepare (h : store.Opened) : store.prepare.2.Opened := by
  rw [h.prepare_eq]
  refine ⟨?_, fun table => isSome_text?_seedSettings (h.stored table)⟩
  obtain ⟨-, hseed⟩ | ⟨e, hseed⟩ | ⟨-, seeded, hset, hseed⟩ := seedSettings_cases store
  · rw [hseed]
    exact h.takesWrites
  · rw [hseed]
    exact h.takesWrites
  · rw [hseed]
    cases hset.symm.trans (setRows_healthy h.takesWrites)
    exact h.takesWrites

end Opened

/-- The first opening of a store that takes every write, whose settings are absent or readable. -/
theorem prepare_takesWrites (hquota : store.quota = none)
    (hrows : store.rows Table.settings.name = .ok rows) :
    ∃ opened, store.prepare = (.ok (), opened) ∧ opened.Opened ∧ opened.Furnished := by
  obtain ⟨created, hcreate, hcreated⟩ := createMissing_takesWrites hquota Table.all
  have hopened : created.Opened :=
    ⟨hcreated, fun table => stored_createMissing hcreate table table.mem_all⟩
  have hsettings := rows_createMissing store Table.all Table.settings.name
  rw [hcreate, hrows] at hsettings
  have hprepare : store.prepare = created.prepare := by
    rw [prepare_of_created hcreate, hopened.prepare_eq]
  cases rows with
  | nil =>
    rw [hprepare]
    have hopenedAgain := hopened.prepare
    rw [hopened.prepare_empty hsettings] at hopenedAgain ⊢
    exact ⟨_, rfl, hopenedAgain, furnished_seeded (setRows_healthy hcreated)⟩
  | cons row rest =>
    have hfurnished : created.Furnished := ⟨row, rest, hsettings⟩
    exact ⟨created, hprepare.trans (hopened.prepare_furnished hfurnished), hopened, hfurnished⟩

/-- The texts of a store that was opened, as they come from those before. -/
structure OpensTo (store opened : Store) : Prop where
  others : ∀ key, (∀ table : Table, table.name ≠ key) → opened.text? key = store.text? key
  tables : ∀ table, table ≠ Table.settings →
    opened.text? table.name = some ((store.text? table.name).getD (textOfRows []))
  settings : ∀ rows, store.rows Table.settings.name = .ok rows →
    opened.text? Table.settings.name =
      if rows = [] then some (textOfRows defaultSettings) else store.text? Table.settings.name

/-- Whether a store gets the default settings when it is opened, and nothing else. -/
structure Seeds (store : Store) : Prop where
  result : store.prepare.1 = .ok ()
  settings : store.prepare.2.rows Table.settings.name = .ok defaultSettings
  others : ∀ key, key ≠ Table.settings.name → store.prepare.2.text? key = store.text? key

theorem Opened.seeds (h : store.Opened) (hrows : store.rows Table.settings.name = .ok []) :
    store.Seeds := by
  have hprepare := h.prepare_empty hrows
  refine ⟨by rw [hprepare], ?_, fun key hkey => ?_⟩
  · rw [hprepare, rows_written_self, rowsOfText_defaultSettings]
  · rw [hprepare]
    exact lookup_putText_ne hkey _ _

/-- Nothing else is written, and nothing of this is left out. -/
theorem opensTo (h : store.prepare = (.ok (), store')) (hopened : store'.Opened)
    (hfurnished : store'.Furnished) : store.OpensTo store' := by
  have htext : ∀ key, _ := text?_prepare store
  rw [h] at htext
  refine ⟨fun key hkey => ?_, fun table htable => ?_, fun rows hrows => ?_⟩
  · obtain hsame | ⟨-, ⟨table, hname⟩, -⟩ | ⟨hname, -⟩ := htext key
    · exact hsame
    · exact absurd hname (hkey table)
    · exact absurd hname.symm (hkey .settings)
  · obtain hsame | ⟨hnone, -, hempty⟩ | ⟨hname, -⟩ := htext table.name
    · obtain ⟨text, hstored⟩ := Option.isSome_iff_exists.mp (hopened.stored table)
      rw [hstored] at hsame ⊢
      rw [← hsame]
      rfl
    · rw [hempty, hnone]
      rfl
    · exact absurd (Table.name_injective hname) htable
  · obtain ⟨row, rest, hsettings⟩ := hfurnished
    obtain hsame | ⟨hnone, -, hempty⟩ | ⟨-, hempty, hdefault⟩ := htext Table.settings.name
    · have hread : store'.rows Table.settings.name = store.rows Table.settings.name := by
        simp only [Store.rows, hsame]
      cases hrows.symm.trans (hread.symm.trans hsettings)
      exact hsame
    · have hread : store'.rows Table.settings.name = .ok [] := by
        simp only [Store.rows, hempty, rowsOfText_empty]
      cases hread.symm.trans hsettings
    · cases hrows.symm.trans hempty
      exact hdefault

end Planner.Store

import Planner.Proofs.Store.Backend
import Planner.Proofs.Store.Statements

/-! Natural keys: what a statement has to be so that no two rows of a table come to have the same. -/
namespace Planner

namespace Record

variable {record fields : Record} {name other : String} {value : Json}

theorem get?_set_self (name : String) (value : Json) (record : Record) :
    (record.set name value).get? name = some value := by
  induction record with
  | nil => simp [set, get?]
  | cons head rest ih =>
    obtain ⟨key, old⟩ := head
    unfold set
    split_ifs with hkey
    · simp [get?]
    · simp [get?]
    · simp [get?, hkey, ih]

theorem get?_set_ne (h : other ≠ name) (value : Json) (record : Record) :
    (record.set name value).get? other = record.get? other := by
  induction record with
  | nil => simp [set, get?, h.symm]
  | cons head rest ih =>
    obtain ⟨key, old⟩ := head
    unfold set
    split_ifs with hkey
    · subst hkey
      simp [get?, h.symm]
    · simp [get?, h.symm]
    · simp only [get?, ih]

/-- A field is left as it is when others are set. -/
theorem get?_foldl_set (h : ∀ field ∈ fields, field.1 ≠ name) :
    (fields.foldl (fun record field => record.set field.1 field.2) record).get? name =
      record.get? name := by
  induction fields generalizing record with
  | nil => rfl
  | cons first rest ih =>
    obtain ⟨hfirst, hrest⟩ := List.forall_mem_cons.mp h
    rw [List.foldl_cons, ih hrest, get?_set_ne (Ne.symm hfirst)]

theorem get?_ofFields_head (h : ∀ field ∈ fields, field.1 ≠ name) :
    (ofFields ((name, value) :: fields)).get? name = some value := by
  rw [ofFields, List.foldl_cons, get?_foldl_set h, get?_set_self]

theorem mem_of_get? (h : record.get? name = some value) : (name, value) ∈ record := by
  induction record with
  | nil => cases h
  | cons head rest ih =>
    obtain ⟨key, old⟩ := head
    unfold get? at h
    split_ifs at h with hkey
    · cases h
      subst hkey
      exact List.mem_cons_self ..
    · exact List.mem_cons_of_mem _ (ih h)

theorem get?_rereadFields (record : Record) (name : String) :
    (Json.rereadFields record).get? name = (record.get? name).map Json.reread := by
  induction record with
  | nil => rfl
  | cons head rest ih =>
    obtain ⟨key, old⟩ := head
    simp only [Json.rereadFields, get?]
    split_ifs
    · rfl
    · exact ih

end Record

namespace Store

open Json Outcome

variable {store store' : Store} {table : Table} {rows rows' : List Record} {row a b : Record}
  {count : Nat}

/-- Whether the values of the natural key are read back as themselves. -/
def SteadyKey (table : Table) (row : Record) : Prop :=
  ∀ column ∈ table.naturalKey, ∀ v ∈ row.get? column, v.reread = v

instance (table : Table) (row : Record) : Decidable (SteadyKey table row) :=
  inferInstanceAs (Decidable (∀ column ∈ table.naturalKey, ∀ v ∈ row.get? column, v.reread = v))

/-- Whether a row has the same values as another in the columns of the natural key, or lacks the
same of them. -/
def KeepsKey (table : Table) (a b : Record) : Prop :=
  ∀ column ∈ table.naturalKey, b.get? column = a.get? column

/-- Rows that all have their natural key, in values that are read back as themselves, and no two of
them the same. -/
structure Unique (table : Table) (rows : List Record) : Prop where
  hasKey : ∀ row ∈ rows, HasKey table row
  steady : ∀ row ∈ rows, SteadyKey table row
  distinct : KeysDistinct table rows

theorem unique_nil (table : Table) : Unique table [] :=
  ⟨by simp, by simp, List.Pairwise.nil⟩

theorem KeepsKey.hasKey (h : KeepsKey table a b) (ha : HasKey table a) : HasKey table b := by
  intro column hc
  rw [Record.has, h column hc]
  exact ha column hc

theorem KeepsKey.steady (h : KeepsKey table a b) (ha : SteadyKey table a) : SteadyKey table b := by
  intro column hc v hv
  rw [h column hc] at hv
  exact ha column hc v hv

theorem KeepsKey.sameKey {c d : Record} (hab : KeepsKey table a b) (hcd : KeepsKey table c d)
    (h : SameKey table b d) : SameKey table a c := by
  refine agrees_iff.mpr fun field hf => ?_
  obtain ⟨hcolumn, hget⟩ := mem_keyed.mp hf
  rw [← hab _ hcolumn] at hget
  obtain ⟨value, hvalue, hsame⟩ := agrees_iff.mp h field (mem_keyed.mpr ⟨hcolumn, hget⟩)
  exact ⟨value, (hcd _ hcolumn).symm.trans hvalue, hsame⟩

/-- Every row comes from one whose key it keeps. -/
theorem exists_keepsKey (h : List.Forall₂ (KeepsKey table) rows rows') (hrow : row ∈ rows') :
    ∃ old ∈ rows, KeepsKey table old row := by
  induction h with
  | nil => cases hrow
  | cons hfirst hrest ih =>
    rcases List.mem_cons.mp hrow with rfl | hrow
    · exact ⟨_, List.mem_cons_self .., hfirst⟩
    · obtain ⟨old, hold, hkeeps⟩ := ih hrow
      exact ⟨old, List.mem_cons_of_mem _ hold, hkeeps⟩

namespace Unique

/-- Rows that keep their keys stay unique. -/
theorem keeps (h : Unique table rows) (hrows : List.Forall₂ (KeepsKey table) rows rows') :
    Unique table rows' := by
  obtain ⟨hkey, hsteady, hdistinct⟩ := h
  induction hrows with
  | nil => exact unique_nil table
  | @cons a b rows rows' hab hrows ih =>
    obtain ⟨hkeyA, hkey⟩ := List.forall_mem_cons.mp hkey
    obtain ⟨hsteadyA, hsteady⟩ := List.forall_mem_cons.mp hsteady
    obtain ⟨hne, hdistinct⟩ := List.pairwise_cons.mp hdistinct
    have hmore := ih hkey hsteady hdistinct
    refine ⟨List.forall_mem_cons.mpr ⟨hab.hasKey hkeyA, hmore.hasKey⟩,
      List.forall_mem_cons.mpr ⟨hab.steady hsteadyA, hmore.steady⟩,
      List.pairwise_cons.mpr ⟨fun other hother hsame => ?_, hmore.distinct⟩⟩
    obtain ⟨old, hold, hkeeps⟩ := exists_keepsKey hrows hother
    exact hne old hold (hab.sameKey hkeeps hsame)

theorem sublist (h : Unique table rows) (hrows : rows'.Sublist rows) : Unique table rows' :=
  ⟨fun row hrow => h.hasKey row (hrows.subset hrow),
    fun row hrow => h.steady row (hrows.subset hrow), h.distinct.sublist hrows⟩

/-- A row with a key that no other has. -/
theorem append (h : Unique table rows) (hkey : HasKey table row) (hsteady : SteadyKey table row)
    (hnew : ∀ old ∈ rows, ¬ SameKey table old row) : Unique table (rows ++ [row]) where
  hasKey := List.forall_mem_append.mpr ⟨h.hasKey, List.forall_mem_singleton.mpr hkey⟩
  steady := List.forall_mem_append.mpr ⟨h.steady, List.forall_mem_singleton.mpr hsteady⟩
  distinct := List.pairwise_append.mpr ⟨h.distinct, List.pairwise_singleton _ _,
    fun old hold _ hother => List.mem_singleton.mp hother ▸ hnew old hold⟩

/-- A row in the place of the one that has its key. -/
theorem upsertRow (h : Unique table rows) (hkey : HasKey table row)
    (hsteady : SteadyKey table row) : Unique table (upsertRow (keyed table row) row rows) where
  hasKey other hother := (mem_of_mem_upsertRow hother).elim (· ▸ hkey) (h.hasKey other)
  steady other hother := (mem_of_mem_upsertRow hother).elim (· ▸ hsteady) (h.steady other)
  distinct := by
    obtain ⟨hkeys, -, hdistinct⟩ := h
    induction rows with
    | nil => exact List.pairwise_singleton _ _
    | cons old rest ih =>
      obtain ⟨hkeyOld, hkeys⟩ := List.forall_mem_cons.mp hkeys
      obtain ⟨hne, hdistinct⟩ := List.pairwise_cons.mp hdistinct
      unfold Store.upsertRow
      split_ifs with hsame
      · refine List.pairwise_cons.mpr ⟨fun other hother hother' => hne other hother ?_, hdistinct⟩
        exact sameKey_of_common hkeyOld (sameKey_symm hkey hkeyOld hsame) (hkeys other hother)
          (sameKey_symm hkey (hkeys other hother) hother')
      · refine List.pairwise_cons.mpr ⟨fun other hother hother' => ?_, ih hkeys hdistinct⟩
        rcases mem_of_mem_upsertRow hother with rfl | hmem
        · exact hsame (sameKey_symm hkeyOld hkey hother')
        · exact hne other hmem hother'

end Unique

theorem keepsKey_reread (h : SteadyKey table row) : KeepsKey table row (rereadFields row) := by
  intro column hc
  rw [Record.get?_rereadFields]
  cases hv : row.get? column with
  | none => rfl
  | some v => rw [Option.map_some, h column hc v hv]

theorem Unique.reread (h : Unique table rows) : Unique table (rows.map rereadFields) := by
  refine h.keeps (List.forall₂_map_right_iff.mpr ?_)
  exact List.forall₂_same.mpr fun row hrow => keepsKey_reread (h.steady row hrow)

/-- Whether a store takes every write and the rows of every table that can be read are unique. -/
structure KeysUnique (store : Store) : Prop where
  takesWrites : store.quota = none
  unique : ∀ table rows, store.tableRows table = .ok rows → Unique table rows

theorem sorted_of_tableRows (h : store.tableRows table = .ok rows) :
    ∀ row ∈ rows, (Json.object row).Sorted :=
  fun row hrow => (storable_of_rows (mapError_eq_ok.mp h) row hrow).sorted

variable {fields assignments : List (String × Json)} {statement : Statement}

namespace KeysUnique

/-- A table is written with unique rows: when it is read again their keys are the same. -/
theorem written (h : KeysUnique store) (hrows : Unique table rows)
    (hsorted : ∀ row ∈ rows, (Json.object row).Sorted) : KeysUnique (store.written table rows) where
  takesWrites := h.takesWrites
  unique other read hread := by
    have hread := mapError_eq_ok.mp hread
    by_cases hother : other = table
    · subst hother
      rw [rows_written_self, rowsOfText_textOfRows _ hsorted] at hread
      split_ifs at hread
      cases hread
      exact hrows.reread
    · rw [rows_written_ne hother] at hread
      exact h.unique other read (mapError_eq_ok.mpr hread)

/-- A statement keeps the keys unique when the rows that it writes are. -/
theorem apply (h : KeysUnique store)
    (hwrites : ∀ rows count rows', store.tableRows statement.table = .ok rows →
      statement.effect rows = .ok (count, some rows') →
        Unique statement.table rows' ∧ ∀ row ∈ rows', (Json.object row).Sorted)
    (hrun : store.apply statement = .ok (count, store')) : KeysUnique store' := by
  obtain ⟨rows, written, hrows, heffect, hset⟩ := apply_cases hrun
  cases written with
  | none =>
    subst hset
    exact h
  | some rows' =>
    obtain ⟨hunique, hsorted⟩ := hwrites rows count rows' hrows heffect
    dsimp only at hset
    rw [setTableRows_healthy h.takesWrites] at hset
    cases hset
    exact h.written hunique hsorted

end KeysUnique

theorem effect_insertFields {conflict : OnConflict} :
    (Statement.insertFields table fields conflict).effect rows =
      if conflict = .append then .ok (1, some (rows ++ [Record.ofFields fields]))
      else do
        let key ← keyOf table (Record.ofFields fields)
        match upserted key (Record.ofFields fields) conflict rows with
        | some rows => return (1, some rows)
        | none => return (0, none) := by
  have hzip : (fields.map Prod.fst).zip (fields.map Prod.snd) = fields := by
    rw [List.zip_map', List.map_id']
  conv_rhs => rw [← hzip]
  rfl

/-- Only a row with its natural key can be put in the place of another. -/
theorem hasKey_of_keyOf {key : List (String × Json)} (h : keyOf table row = .ok key) :
    HasKey table row := by
  unfold keyOf at h
  unfold HasKey
  generalize table.naturalKey = columns at h ⊢
  induction columns generalizing key with
  | nil => simp
  | cons column rest ih =>
    rw [List.mapM_cons] at h
    obtain ⟨field, hfield, h⟩ := bind_eq_ok.mp h
    obtain ⟨fields, hfields, -⟩ := bind_eq_ok.mp h
    refine List.forall_mem_cons.mpr ⟨?_, ih hfields⟩
    cases hget : row.get? column with
    | none => simp [hget] at hfield
    | some value => simp [Record.has, hget]

/-- A row whose key no stored row has is added. -/
theorem KeysUnique.append (h : KeysUnique store) (hkey : HasKey table (.ofFields fields))
    (hsteady : SteadyKey table (.ofFields fields)) (hsorted : ∀ field ∈ fields, field.2.Sorted)
    (hnew : ∀ rows, store.tableRows table = .ok rows →
      ∀ old ∈ rows, ¬ SameKey table old (.ofFields fields))
    (hrun : store.apply (.insertFields table fields .append) = .ok (count, store')) :
    KeysUnique store' := by
  refine h.apply (fun rows count rows' hrows heffect => ?_) hrun
  rw [effect_insertFields, if_pos rfl] at heffect
  cases heffect
  refine ⟨(h.unique table rows hrows).append hkey hsteady (hnew rows hrows), ?_⟩
  refine List.forall_mem_append.mpr ⟨sorted_of_tableRows hrows, ?_⟩
  exact List.forall_mem_singleton.mpr (sorted_ofFields hsorted)

/-- A row takes the place of the one that has its key. -/
theorem KeysUnique.replace (h : KeysUnique store) (hsteady : SteadyKey table (.ofFields fields))
    (hsorted : ∀ field ∈ fields, field.2.Sorted)
    (hrun : store.apply (.insertFields table fields .replace) = .ok (count, store')) :
    KeysUnique store' := by
  refine h.apply (fun rows count rows' hrows heffect => ?_) hrun
  rw [effect_insertFields, if_neg (by decide)] at heffect
  obtain ⟨key, hkeyOf, heffect⟩ := bind_eq_ok.mp heffect
  have hkey := hasKey_of_keyOf hkeyOf
  cases (keyOf_eq_keyed hkey).symm.trans hkeyOf
  rw [upserted_eq, if_neg (by simp)] at heffect
  cases heffect
  exact ⟨(h.unique table rows hrows).upsertRow hkey hsteady,
    forall_mem_upsertRow (sorted_ofFields hsorted) (sorted_of_tableRows hrows)⟩

/-- Setting other columns keeps the key. -/
theorem keepsKey_foldl_set (h : ∀ field ∈ assignments, field.1 ∉ table.naturalKey)
    (row : Record) : KeepsKey table row
      (assignments.foldl (fun row field => Record.set field.1 field.2 row) row) := by
  intro column hc
  refine Record.get?_foldl_set fun field hf hname => ?_
  exact h field hf (hname ▸ hc)

theorem keepsKey_assignFirst (h : ∀ field ∈ assignments, field.1 ∉ table.naturalKey) {id : Json}
    (hassigned : assignFirst assignments id rows = some rows') :
    List.Forall₂ (KeepsKey table) rows rows' := by
  induction rows generalizing rows' with
  | nil => cases hassigned
  | cons first rest ih =>
    have hsame : ∀ row : Record, KeepsKey table row row := fun _ _ _ => rfl
    unfold assignFirst at hassigned
    split_ifs at hassigned
    · cases hassigned
      exact .cons (keepsKey_foldl_set h first) (List.forall₂_same.mpr fun row _ => hsame row)
    · obtain ⟨others, hothers, rfl⟩ := Option.map_eq_some_iff.mp hassigned
      exact .cons (hsame first) (ih hothers)

theorem KeysUnique.update (h : KeysUnique store)
    (hnames : ∀ field ∈ assignments, field.1 ∉ table.naturalKey)
    (hsorted : ∀ field ∈ assignments, field.2.Sorted) {id : Json}
    (hrun : store.apply (.update table assignments id) = .ok (count, store')) :
    KeysUnique store' := by
  refine h.apply (fun rows count rows' hrows heffect => ?_) hrun
  simp only [Statement.effect] at heffect
  split at heffect
  · rename_i hassigned
    cases heffect
    refine ⟨(h.unique table rows hrows).keeps (keepsKey_assignFirst hnames hassigned), ?_⟩
    obtain ⟨old, hold, row, -, rfl, hmem⟩ := mem_assignFirst hassigned
    intro other hother
    rcases hmem other hother with rfl | hother
    · exact sorted_foldl_set (sorted_of_tableRows hrows old hold) hsorted
    · exact sorted_of_tableRows hrows other hother
  · cases heffect

theorem KeysUnique.delete (h : KeysUnique store) {filter : Option Predicate}
    (hrun : store.apply (.delete table filter) = .ok (count, store')) : KeysUnique store' := by
  refine h.apply (fun rows count rows' hrows heffect => ?_) hrun
  have hkept := kept_sublist filter rows
  simp only [Statement.effect] at heffect
  split_ifs at heffect
  · cases heffect
  · cases heffect
    exact ⟨(h.unique table rows hrows).sublist hkept,
      fun row hrow => sorted_of_tableRows hrows row (hkept.subset hrow)⟩

end Store
end Planner

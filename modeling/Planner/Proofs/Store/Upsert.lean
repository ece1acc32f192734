import Planner.Proofs.Store.Rows

/-! Insertions that mind the natural key: which row they replace, and what they leave alone. -/
namespace Planner

namespace Json

theorem same_iff {a b : Json} : a.same b = true ↔ a.unsignedZeros = b.unsignedZeros :=
  decide_eq_true_iff

theorem same_text_iff {v : Json} {s : String} : v.same (.text s) = true ↔ v = .text s := by
  rw [same_iff]
  cases v <;> simp [unsignedZeros]

end Json

namespace Store

open Json Outcome

variable {rows : List Record} {row old : Record} {table : Table} {key : List (String × Json)}

/-- Whether a row has every column of the natural key of its table. -/
def HasKey (table : Table) (row : Record) : Prop :=
  ∀ column ∈ table.naturalKey, row.has column = true

instance (table : Table) (row : Record) : Decidable (HasKey table row) :=
  inferInstanceAs (Decidable (∀ column ∈ table.naturalKey, row.has column = true))

/-- The columns of the natural key that a row has, with their values. -/
def keyed (table : Table) (row : Record) : List (String × Json) :=
  table.naturalKey.filterMap fun column => (row.get? column).map (column, ·)

theorem keyOf_eq_keyed (h : HasKey table row) : keyOf table row = .ok (keyed table row) := by
  unfold HasKey at h
  unfold keyOf keyed
  generalize table.naturalKey = columns at h ⊢
  induction columns with
  | nil => rfl
  | cons column rest ih =>
    obtain ⟨hcolumn, hrest⟩ := List.forall_mem_cons.mp h
    obtain ⟨value, hvalue⟩ := Option.isSome_iff_exists.mp hcolumn
    rw [List.mapM_cons, ih hrest]
    simp [hvalue, bind, Except.bind, pure, Except.pure]

theorem agrees_iff : agrees key row = true ↔
    ∀ field ∈ key, ∃ value, row.get? field.1 = some value ∧ value.same field.2 = true := by
  simp only [agrees, List.all_eq_true]
  refine forall₂_congr fun field _ => ?_
  cases row.get? field.1 <;> simp

theorem mem_keyed {field : String × Json} : field ∈ keyed table row ↔
    field.1 ∈ table.naturalKey ∧ row.get? field.1 = some field.2 := by
  obtain ⟨column, value⟩ := field
  simp only [keyed, List.mem_filterMap, Option.map_eq_some_iff, Prod.mk.injEq]
  constructor
  · rintro ⟨name, hname, found, hfound, rfl, rfl⟩
    exact ⟨hname, hfound⟩
  · rintro ⟨hname, hfound⟩
    exact ⟨column, hname, value, hfound, rfl, rfl⟩

/-- Whether two rows have the same values in the natural key of their table. -/
def SameKey (table : Table) (a b : Record) : Prop := agrees (keyed table a) b = true

instance (table : Table) (a b : Record) : Decidable (SameKey table a b) :=
  inferInstanceAs (Decidable (agrees (keyed table a) b = true))

theorem sameKey_self (table : Table) (row : Record) : SameKey table row row :=
  agrees_iff.mpr fun field hf => ⟨field.2, (mem_keyed.mp hf).2, same_iff.mpr rfl⟩

theorem sameKey_iff {a b : Record} (ha : HasKey table a) : SameKey table a b ↔
    ∀ column ∈ table.naturalKey, ∃ v ∈ a.get? column, ∃ w ∈ b.get? column,
      w.same v = true := by
  refine agrees_iff.trans ⟨fun h column hc => ?_, fun h field hf => ?_⟩
  · obtain ⟨v, hv⟩ := Option.isSome_iff_exists.mp (ha column hc)
    obtain ⟨w, hw, hsame⟩ := h (column, v) (mem_keyed.mpr ⟨hc, hv⟩)
    exact ⟨v, hv, w, hw, hsame⟩
  · obtain ⟨hc, hget⟩ := mem_keyed.mp hf
    obtain ⟨v, hv, w, hw, hsame⟩ := h field.1 hc
    obtain rfl : field.2 = v := Option.some.inj (hget.symm.trans hv)
    exact ⟨w, hw, hsame⟩

/-- Two rows with the key of a third have the same key. -/
theorem sameKey_of_common {a b c : Record} (ha : HasKey table a) (hac : SameKey table a c)
    (hb : HasKey table b) (hbc : SameKey table b c) : SameKey table a b := by
  rw [sameKey_iff ha] at hac ⊢
  rw [sameKey_iff hb] at hbc
  intro column hc
  obtain ⟨v, hv, w, hw, hvw⟩ := hac column hc
  obtain ⟨u, hu, w', hw', huw⟩ := hbc column hc
  obtain rfl : w = w' := Option.some.inj (hw.symm.trans hw')
  exact ⟨v, hv, u, hu, same_iff.mpr ((same_iff.mp huw).symm.trans (same_iff.mp hvw))⟩

/-- The rows with one more: in the place of the first that has the key, or behind them all. -/
def upsertRow (key : List (String × Json)) (row : Record) : List Record → List Record
  | [] => [row]
  | old :: rest => if agrees key old then row :: rest else old :: upsertRow key row rest

theorem replaceFirst_or_append :
    (if rows.any (agrees key) then replaceFirst key row rows else rows ++ [row]) =
      upsertRow key row rows := by
  induction rows with
  | nil => rfl
  | cons old rest ih =>
    simp only [List.any_cons, replaceFirst, upsertRow, ← ih, List.cons_append]
    by_cases hold : agrees key old <;> by_cases hrest : rest.any (agrees key) <;>
      simp [hold, hrest]

theorem upserted_eq {conflict : OnConflict} : upserted key row conflict rows =
    if rows.any (agrees key) ∧ conflict = .ignore then none else some (upsertRow key row rows) := by
  rw [← replaceFirst_or_append]
  unfold upserted
  split_ifs <;> simp_all

theorem mem_upsertRow_self (key : List (String × Json)) (row : Record) (rows : List Record) :
    row ∈ upsertRow key row rows := by
  induction rows with
  | nil => exact List.mem_singleton.mpr rfl
  | cons old rest ih =>
    unfold upsertRow
    split_ifs
    · exact List.mem_cons_self ..
    · exact List.mem_cons_of_mem _ ih

theorem mem_of_mem_upsertRow (h : old ∈ upsertRow key row rows) : old = row ∨ old ∈ rows := by
  induction rows with
  | nil => exact .inl (List.mem_singleton.mp h)
  | cons first rest ih =>
    unfold upsertRow at h
    split_ifs at h
    · exact (List.mem_cons.mp h).imp_right (List.mem_cons_of_mem _)
    · rcases List.mem_cons.mp h with rfl | h
      · exact .inr (List.mem_cons_self ..)
      · exact (ih h).imp_right (List.mem_cons_of_mem _)

theorem forall_mem_upsertRow {P : Record → Prop} (hrow : P row) (hrows : ∀ old ∈ rows, P old) :
    ∀ old ∈ upsertRow key row rows, P old :=
  fun old hold => (mem_of_mem_upsertRow hold).elim (· ▸ hrow) (hrows old)

/-- A row with another key stays. -/
theorem mem_upsertRow_of_ne (h : old ∈ rows) (hne : agrees key old = false) :
    old ∈ upsertRow key row rows := by
  induction rows with
  | nil => cases h
  | cons first rest ih =>
    unfold upsertRow
    rcases List.mem_cons.mp h with rfl | h
    · rw [hne]
      exact List.mem_cons_self ..
    · split_ifs
      · exact List.mem_cons_of_mem _ h
      · exact List.mem_cons_of_mem _ (ih h)

/-- Rows that neither have the key nor are the new row stay in their order. -/
theorem filter_upsertRow {keep : Record → Bool} (hold : ∀ old, agrees key old = true →
    keep old = false) (hrow : keep row = false) :
    (upsertRow key row rows).filter keep = rows.filter keep := by
  induction rows with
  | nil => simp [upsertRow, hrow]
  | cons old rest ih =>
    unfold upsertRow
    split_ifs with h
    · simp [hrow, hold old h]
    · simp only [List.filter_cons, ih]

/-- A row that stands in its place already changes nothing. -/
theorem upsertRow_of_first {before after : List Record} (h : ∀ old ∈ before, agrees key old = false)
    (hrow : agrees key row = true) :
    upsertRow key row (before ++ row :: after) = before ++ row :: after := by
  induction before with
  | nil => simp [upsertRow, hrow]
  | cons old before ih =>
    obtain ⟨hold, hbefore⟩ := List.forall_mem_cons.mp h
    simp [upsertRow, hold, ih hbefore]

theorem sameKey_symm {a b : Record} (ha : HasKey table a) (hb : HasKey table b)
    (h : SameKey table a b) : SameKey table b a :=
  sameKey_of_common hb (sameKey_self table b) ha h

/-- The rows after others were put among them one by one. -/
def upsertAll (table : Table) (stored rows : List Record) : List Record :=
  rows.foldl (fun stored row => upsertRow (keyed table row) row stored) stored

/-- No two rows have the same values in the natural key of their table. -/
def KeysDistinct (table : Table) (rows : List Record) : Prop :=
  rows.Pairwise fun a b => ¬ SameKey table a b

instance (table : Table) (rows : List Record) : Decidable (KeysDistinct table rows) :=
  inferInstanceAs (Decidable (rows.Pairwise fun a b => ¬ SameKey table a b))

theorem mem_upsertAll {stored : List Record} (h : old ∈ stored)
    (hne : ∀ row ∈ rows, ¬ SameKey table row old) : old ∈ upsertAll table stored rows := by
  induction rows generalizing stored with
  | nil => exact h
  | cons row rest ih =>
    obtain ⟨hrow, hrest⟩ := List.forall_mem_cons.mp hne
    exact ih (mem_upsertRow_of_ne h (Bool.eq_false_of_not_eq_true hrow)) hrest

/-- Rows with distinct keys are all there when they have been put. -/
theorem forall_mem_upsertAll (hkey : ∀ row ∈ rows, HasKey table row)
    (hdistinct : KeysDistinct table rows) (stored : List Record) :
    ∀ row ∈ rows, row ∈ upsertAll table stored rows := by
  induction rows generalizing stored with
  | nil => simp
  | cons row rest ih =>
    obtain ⟨hrow, hrest⟩ := List.forall_mem_cons.mp hkey
    obtain ⟨hne, hdistinct⟩ := List.pairwise_cons.mp hdistinct
    refine List.forall_mem_cons.mpr ⟨?_, ih hrest hdistinct _⟩
    have hput := mem_upsertRow_self (keyed table row) row stored
    have hothers : ∀ other ∈ rest, ¬ SameKey table other row := fun other hother hsame =>
      hne other hother (sameKey_symm (hrest other hother) hrow hsame)
    change row ∈ upsertAll table (upsertRow (keyed table row) row stored) rest
    exact mem_upsertAll hput hothers

/-- Rows that have none of the keys stay in their order. -/
theorem filter_upsertAll {keep : Record → Bool}
    (hkeep : ∀ row ∈ rows, ∀ old, SameKey table row old → keep old = false)
    (stored : List Record) : (upsertAll table stored rows).filter keep = stored.filter keep := by
  induction rows generalizing stored with
  | nil => rfl
  | cons row rest ih =>
    obtain ⟨hrow, hrest⟩ := List.forall_mem_cons.mp hkeep
    have hstep : (upsertRow (keyed table row) row stored).filter keep = _ :=
      filter_upsertRow hrow (hrow row (sameKey_self table row))
    exact (ih hrest _).trans hstep

/-- Rows with distinct keys that stand in their places already change nothing. -/
theorem upsertAll_self (hkey : ∀ row ∈ rows, HasKey table row)
    (hdistinct : KeysDistinct table rows) : upsertAll table rows rows = rows := by
  have hplace : ∀ before rest, before ++ rest = rows →
      upsertAll table (before ++ rest) rest = before ++ rest := by
    intro before rest h
    induction rest generalizing before with
    | nil => rfl
    | cons row rest ih =>
      subst h
      have hrow := hkey row (by simp)
      have hbefore : ∀ old ∈ before, agrees (keyed table row) old = false := by
        intro old hold
        refine Bool.eq_false_of_not_eq_true fun hsame => ?_
        exact (List.pairwise_append.mp hdistinct).2.2 old hold row (List.mem_cons_self ..)
          (sameKey_symm hrow (hkey old (List.mem_append_left _ hold)) hsame)
      have hstep := ih (before ++ [row]) (by simp)
      unfold upsertAll at hstep ⊢
      rw [List.foldl_cons, upsertRow_of_first hbefore (sameKey_self table row)]
      simpa only [List.append_assoc, List.singleton_append] using hstep
  exact hplace [] rows rfl

end Store
end Planner

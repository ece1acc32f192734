import Planner.Proofs.Habits.Log

/-! Days that are noted for a habit, and noted again, on any rows of the log. The entry is put in the
place of the first for the day, of which it keeps the id, and of several notes the last counts. Other
rows are kept as far as their doubles are read back as themselves. -/
namespace Planner

open Store Outcome Workspace Json

variable {rows : List Record} {row : Record} {habitId date : String} {w : Workspace} {l : HabitLog}

namespace Habits

/-! ### Rows of a day -/

/-- What a row says of the day is said by texts, which are read back as themselves. -/
theorem onDay_reread : OnDay habitId date (rereadFields row) ↔ OnDay habitId date row := by
  simp only [OnDay, Record.get?_rereadFields, Option.map_eq_some_iff, reread_eq_text_iff,
    exists_eq_right]

theorem find?_reread (rows : List Record) : (rows.map rereadFields).find? (OnDay habitId date ·) =
    (rows.find? (OnDay habitId date ·)).map rereadFields := by
  rw [List.find?_map]
  congr 2
  funext row
  rw [Function.comp_apply, Bool.eq_iff_iff, decide_eq_true_iff, decide_eq_true_iff, onDay_reread]

theorem find?_upsertRow (l : HabitLog) (rows : List Record) :
    (upsertRow l.key l.row rows).find? (OnDay l.habitId l.date ·) = some l.row := by
  have hself : OnDay l.habitId l.date l.row := l.onDay_row_iff.mpr ⟨rfl, rfl⟩
  induction rows with
  | nil => simp [upsertRow, hself]
  | cons first rest ih =>
    unfold upsertRow
    split_ifs with hfirst
    · simp [hself]
    · rw [HabitLog.agrees_key_iff] at hfirst
      simp [hfirst, ih]

/-- An entry is put among rows before or after they are read anew. -/
theorem upsertRow_reread (l : HabitLog) (rows : List Record) :
    upsertRow l.key l.row (rows.map rereadFields) = (upsertRow l.key l.row rows).map rereadFields := by
  have hself : rereadFields l.row = l.row := l.plain_row.reread_eq
  induction rows with
  | nil => simp [upsertRow, hself]
  | cons first rest ih =>
    have hagrees : agrees l.key (rereadFields first) = agrees l.key first := by
      rw [Bool.eq_iff_iff, HabitLog.agrees_key_iff, HabitLog.agrees_key_iff, onDay_reread]
    simp only [List.map_cons, upsertRow, hagrees]
    split_ifs
    · rw [List.map_cons, hself]
    · rw [List.map_cons, ih]

/-! ### Days that are noted -/

/-- When an entry was put among the rows, it is the one that is found for its day. -/
theorem getLog?_written (hrows : w.store.tableRows .habitLogs = .ok rows) (l : HabitLog) :
    getLog? l.habitId l.date (w.store.written .habitLogs (upsertRow l.key l.row rows)) =
      .ok (some l) := by
  have hread : rereadFields l.row = l.row := l.plain_row.reread_eq
  rw [getLog?_of_rows (tableRows_written (storable_upsertRow hrows l.plain_row.storable)), find?_reread,
    find?_upsertRow, Option.map_some]
  simp only [hread, decodeRow, l.ofJson_row]
  rfl

/-- An entry is found, or found to be missing, if the rows for the day can be read; it has the id of
the first of them. -/
theorem exists_found (hrows : w.store.tableRows .habitLogs = .ok rows)
    (hread : ∀ row ∈ rows, OnDay habitId date row → Succeeds (HabitLog.ofJson (.object row))) :
    ∃ found, getLog? habitId date w.store = .ok found ∧
      match rows.find? (OnDay habitId date ·) with
      | some row => ∃ existing, found = some existing ∧ row.get? "id" = some (.text existing.id)
      | none => found = none := by
  rw [getLog?_of_rows hrows]
  cases hfirst : rows.find? (OnDay habitId date ·) with
  | none => exact ⟨none, rfl, rfl⟩
  | some row =>
    have hday := List.find?_some hfirst
    obtain ⟨existing, hexisting⟩ :=
      hread row (List.mem_of_find?_eq_some hfirst) (of_decide_eq_true hday)
    refine ⟨some existing, ?_, existing, rfl, (HabitLog.readFrom hexisting).id⟩
    simp only [decodeRow, hexisting]
    rfl

/-- Notes a day for a habit again and again. -/
def logAll (habitId date : String) (flags : List Bool) : Action DatabaseError Unit :=
  flags.forM fun completed => do
    let _ ← log habitId date completed

/-- Of the notes for a day the last is left, in the place and with the id of the first. All rows were
read anew before each other note. -/
theorem logAll_concat (hquota : w.store.quota = none)
    (hrows : w.store.tableRows .habitLogs = .ok rows) {found : Option HabitLog} {completed : Bool}
    (hfound : getLog? habitId date w.store = .ok found)
    (hl : entryFor found habitId date completed w = l) (flags : List Bool) :
    logAll habitId date (flags ++ [completed]) w =
      .ok () (noted found ((upsertRow l.key l.row rows).map rereadFields^[flags.length]) w) := by
  -- each note before the last leaves an entry with the key of the last, which the next note finds
  induction flags generalizing w rows found with
  | nil =>
    change EStateM.bind (EStateM.bind (log habitId date completed) _) _ w = _
    simp only [EStateM.bind, log_eq hquota hrows hfound hl]
    simp [pure, EStateM.pure, List.forM]
  | cons flag rest ih =>
    obtain ⟨first, hfirst⟩ : ∃ first, entryFor found habitId date flag w = first := ⟨_, rfl⟩
    have hlog := log_eq hquota hrows hfound hfirst
    generalize hw₁ : noted found (upsertRow first.key first.row rows) w = w₁ at hlog
    have hstep : logAll habitId date (flag :: rest ++ [completed]) w =
        logAll habitId date (rest ++ [completed]) w₁ := by
      change EStateM.bind (EStateM.bind (log habitId date flag) _) _ w = _
      simp only [EStateM.bind, hlog]
      rfl
    have hsame : entryFor (some first) habitId date completed w₁ = l := by
      subst hfirst hl
      rfl
    have hquota₁ : w₁.store.quota = none := by
      subst hw₁
      exact hquota
    have hrows₁ : w₁.store.tableRows .habitLogs =
        .ok ((upsertRow first.key first.row rows).map rereadFields) := by
      subst hw₁
      exact tableRows_written (storable_upsertRow hrows first.plain_row.storable)
    have hfound₁ : getLog? habitId date w₁.store = .ok (some first) := by
      subst hw₁ hfirst
      exact getLog?_written hrows _
    have hkey : l.key = first.key := by
      subst hfirst hl
      rfl
    have hagrees : agrees first.key first.row = true :=
      HabitLog.agrees_key.mpr ⟨rfl, rfl⟩
    rw [hstep, ih hquota₁ hrows₁ hfound₁ hsame, upsertRow_reread, hkey,
      upsertRow_upsertRow hagrees, List.map_map, List.length_cons, Function.iterate_succ]
    subst hw₁
    simp only [noted, written_written, Option.isSome_some, if_true, Nat.add_zero]

theorem map_iterate_eq_self (h : ∀ row ∈ rows, rereadFields row = row) (n : Nat) :
    rows.map rereadFields^[n] = rows := by
  refine (List.map_congr_left fun row hrow => ?_).trans (List.map_id _)
  exact Function.iterate_fixed (h row hrow) n

/-- A day is noted again and again: only the last note is left, with the id that the first got, among
rows that were read anew each time. If they are read back as themselves, all is as if the last note
had been the only one. -/
structure LogsAgain (habitId date : String) (completed : Bool) (flags : List Bool)
    (placed : List Record) (w w' w'' : Workspace) : Prop where
  run : logAll habitId date (flags ++ [completed]) w = .ok () w''
  written : w''.store.tableRows .habitLogs = .ok (placed.map rereadFields^[flags.length + 1])
  others : ∀ name ≠ Table.habitLogs.name, w''.store.text? name = w.store.text? name
  same : (∀ row ∈ placed, rereadFields row = row) → w'' = w'

/-- A day is noted for a habit by one entry. It has the id of the first row for the day or else a new
one, it is found for the day then, and it is put among the rows, which are read anew otherwise: they
are kept if and only if their doubles are read back as themselves. No other table is written. -/
structure LogsDay (habitId date : String) (completed : Bool) (rows placed : List Record)
    (l : HabitLog) (w w' : Workspace) : Prop where
  run : log habitId date completed w = .ok l w'
  mark : l.mark = ⟨habitId, date, completed⟩
  id : match rows.find? (OnDay habitId date ·) with
    | some row => row.get? "id" = some (.text l.id)
    | none => l.id = idOfNumber (w.issued + 1)
  found : getLog? habitId date w'.store = .ok (some l)
  puts : Puts .habitLogs l.row rows placed
  written : w'.store.tableRows .habitLogs = .ok (placed.map rereadFields)
  kept_iff : w'.store.tableRows .habitLogs = .ok placed ↔ ∀ row ∈ placed, rereadFields row = row
  others : ∀ name ≠ Table.habitLogs.name, w'.store.text? name = w.store.text? name
  again : ∀ flags, ∃ w'', LogsAgain habitId date completed flags placed w w' w''

/-- On a host that takes every write a day is noted when the rows of the log are read and those for a
day of a habit are entries. -/
theorem log_puts (hquota : w.store.quota = none)
    (hrows : w.store.tableRows .habitLogs = .ok rows)
    (hread : ∀ row ∈ rows, OnDay habitId date row → Succeeds (HabitLog.ofJson (.object row)))
    (completed : Bool) : ∃ l w' placed, LogsDay habitId date completed rows placed l w w' := by
  obtain ⟨found, hfound, hfirst⟩ := exists_found hrows hread
  obtain ⟨l, hl⟩ : ∃ l, entryFor found habitId date completed w = l := ⟨_, rfl⟩
  have hday : l.habitId = habitId ∧ l.date = date := by
    subst hl
    exact ⟨rfl, rfl⟩
  have hstorable : ∀ row ∈ upsertRow l.key l.row rows, Storable row :=
    storable_upsertRow hrows l.plain_row.storable
  have hwritten : (w.store.written .habitLogs (upsertRow l.key l.row rows)).tableRows .habitLogs =
      .ok ((upsertRow l.key l.row rows).map rereadFields) := tableRows_written hstorable
  refine ⟨l, _, _, log_eq hquota hrows hfound hl, ?_, ?_, ?_, l.keyed_row ▸ puts_upsertRow
    l.hasKey_row rows, hwritten, ?_, fun _ => text?_written_ne, fun flags => ?_⟩
  · subst hl
    rfl
  · subst hl
    split at hfirst
    · obtain ⟨existing, rfl, hid⟩ := hfirst
      exact hid
    · subst hfirst
      rfl
  · obtain ⟨rfl, rfl⟩ := hday
    exact getLog?_written hrows l
  · rw [← map_reread_eq_self_iff]
    change (w.store.written .habitLogs _).tableRows .habitLogs = _ ↔ _
    rw [hwritten, Except.ok.injEq]
  · refine ⟨_, logAll_concat hquota hrows hfound hl flags, ?_, fun _ => text?_written_ne,
      fun hsame => by rw [map_iterate_eq_self hsame]⟩
    refine (tableRows_written (List.forall_mem_map.mpr fun row hrow => ?_)).trans ?_
    · exact (hstorable row hrow).iterate _
    · rw [List.map_map, ← Function.iterate_succ']

/-- The entries of a habit for two days. -/
def dailyReading : List HabitLog :=
  [⟨"1", "read", "2024-05-14", true⟩, ⟨"2", "read", "2024-05-15", false⟩]

theorem log_puts_dailyReading : ∃ l w',
    log "read" "2024-05-15" true
      ⟨Store.empty.written .habitLogs (dailyReading.map HabitLog.row), ⟨0⟩, 2⟩ = .ok l w' ∧
    l.mark = ⟨"read", "2024-05-15", true⟩ ∧
    getLog? "read" "2024-05-15" w'.store = .ok (some l) := by
  have hread : ∀ row ∈ dailyReading.map HabitLog.row, OnDay "read" "2024-05-15" row →
      Succeeds (HabitLog.ofJson (.object row)) :=
    List.forall_mem_map.mpr fun l _ _ => ⟨l, l.ofJson_row⟩
  obtain ⟨l, w', _, hlogs⟩ :=
    log_puts (w := ⟨Store.empty.written .habitLogs (dailyReading.map HabitLog.row), ⟨0⟩, 2⟩) rfl
      (hasLog_written dailyReading Store.empty) hread true
  exact ⟨l, w', hlogs.run, hlogs.mark, hlogs.found⟩

/-- An entry with a column of its own. -/
def restlessRow : Record :=
  [("completed", .number (.integer (.ofBool true))), ("date", .text "2024-05-14"),
    ("effort", .number (.double restless)), ("habit_id", .text "read"), ("id", .text "1")]

def restlessLog : Workspace := ⟨Store.empty.written .habitLogs [restlessRow], ⟨0⟩, 0⟩

/-- Noting another day changes the row of that entry. -/
theorem not_kept_restlessLog : restlessLog.store.quota = none ∧ ∃ rows l w' rows' row,
    restlessLog.store.tableRows .habitLogs = .ok rows ∧
    (∀ row ∈ rows, ¬ OnDay "read" "2024-05-15" row) ∧
    log "read" "2024-05-15" true restlessLog = .ok l w' ∧
    w'.store.tableRows .habitLogs = .ok rows' ∧ row ∈ rows ∧ row ∉ rows' := by
  have hstorable : Storable restlessRow := by
    refine ⟨by unfold Record.Ordered; decide, ?_⟩
    simp [restlessRow, Fits, Sorted, depth]
  have hrows : restlessLog.store.tableRows .habitLogs = .ok [rereadFields restlessRow] :=
    tableRows_written (List.forall_mem_singleton.mpr hstorable)
  have hother : ∀ row ∈ [rereadFields restlessRow], ¬ OnDay "read" "2024-05-15" row := by
    rw [List.forall_mem_singleton, onDay_reread]
    decide
  have hfound : getLog? "read" "2024-05-15" restlessLog.store = .ok none := by
    rw [getLog?_of_rows hrows, List.find?_eq_none.mpr fun row hrow => by simpa using hother row hrow]
  refine ⟨rfl, _, _, _, _, _, hrows, hother, log_eq rfl hrows hfound rfl,
    tableRows_written (storable_upsertRow hrows (HabitLog.plain_row _).storable), List.mem_singleton.mpr rfl, ?_⟩
  decide +kernel

end Habits
end Planner

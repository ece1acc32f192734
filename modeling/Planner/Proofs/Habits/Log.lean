import Planner.Proofs.Entity.Entities
import Planner.Proofs.Entity.Reading
import Planner.Proofs.References
import Planner.Proofs.Store.Placing

/-! The log of habits as a list of entries: which entry is found for a date, and which one a new
entry takes the place of. Dates are told apart by their texts there. -/
namespace Planner

open Store Outcome Workspace

/-- What is noted of a habit for a date. -/
structure Mark where
  habitId : String
  date : String
  completed : Bool
deriving DecidableEq

namespace Mark

variable {habitId date : String} {day : Date} {m : Mark} {marks : List Mark}

/-- Whether a mark is of a habit and for a date with a text. -/
def At (habitId date : String) (m : Mark) : Prop := m.habitId = habitId ∧ m.date = date

instance (habitId date : String) : DecidablePred (At habitId date) := fun _ =>
  inferInstanceAs (Decidable (_ ∧ _))

/-- The last of the marks of a habit for a date with a text. -/
def lastAt (habitId date : String) (marks : List Mark) : Option Mark :=
  marks.reverse.find? (·.At habitId date)

theorem lastAt_concat (habitId date : String) (marks : List Mark) (m : Mark) :
    lastAt habitId date (marks ++ [m]) =
      if m.At habitId date then some m else lastAt habitId date marks := by
  simp only [lastAt, List.reverse_append, List.reverse_singleton, List.singleton_append,
    List.find?_cons]
  by_cases h : m.At habitId date <;> simp [h]

theorem mem_of_lastAt (h : lastAt habitId date marks = some m) :
    m ∈ marks ∧ m.At habitId date := by
  have hat := List.find?_some h
  exact ⟨List.mem_reverse.mp (List.mem_of_find?_eq_some h), of_decide_eq_true hat⟩

theorem exists_lastAt (h : m ∈ marks) :
    ∃ last, lastAt m.habitId m.date marks = some last := by
  refine Option.isSome_iff_exists.mp (List.find?_isSome.mpr ⟨m, List.mem_reverse.mpr h, ?_⟩)
  exact decide_eq_true ⟨rfl, rfl⟩

end Mark

/-- Whether a row of the log is that of a habit and of a date with a text. -/
def Habits.OnDay (habitId date : String) (row : Record) : Prop :=
  row.get? "habit_id" = some (.text habitId) ∧ row.get? "date" = some (.text date)

instance (habitId date : String) : DecidablePred (Habits.OnDay habitId date) := fun _ =>
  inferInstanceAs (Decidable (_ ∧ _))

theorem Habits.holds_logOn_iff {habitId date : String} {row : Record} :
    (Predicate.all [.hasText "habit_id" habitId, .hasText "date" date]).holds row = true ↔
      OnDay habitId date row := by
  have hboth : (Predicate.all [.hasText "habit_id" habitId, .hasText "date" date]).holds row =
      ((Predicate.hasText "habit_id" habitId).holds row &&
        ((Predicate.hasText "date" date).holds row && true)) := by
    simp only [Predicate.holds, Predicate.allHold]
  rw [hboth, Bool.and_true, Bool.and_eq_true, Predicate.holds_hasText, Predicate.holds_hasText,
    OnDay]

namespace HabitLog

variable {l old : HabitLog} {entries : List HabitLog} {marks : List Mark} {habitId date : String}

/-- An entry without its id. -/
def mark (l : HabitLog) : Mark := ⟨l.habitId, l.date, l.completed⟩

/-- An entry as it is stored. -/
def row (l : HabitLog) : Record := .ofFields l.columns

theorem get?_date (l : HabitLog) : l.row.get? "date" = some (.text l.date) := by
  simp [row, columns, Record.ofFields, Record.get?_set_self, Record.get?_set_ne]

theorem plain_row (l : HabitLog) : l.row.Plain := .ofFields l.columns_id.plain

theorem asSwitch_ofBool (b : Bool) : Json.asSwitch (.number (.integer (.ofBool b))) = .ok b := by
  have hzero : (Number.integer (.ofBool b)).toDouble.isZero = !b := by cases b <;> decide +kernel
  rw [Json.asSwitch, hzero, Bool.not_not]

theorem ofJson_row (l : HabitLog) : ofJson (.object l.row) = .ok l := by
  refine bind_eq_ok.mpr ⟨l.row, l.fits_columns.row_object, ?_⟩
  simp [ofRow, row, Record.required, columns, Record.ofFields, Record.get?_set_self,
    Record.get?_set_ne, Json.asText, asSwitch_ofBool, bind, Except.bind, pure, Except.pure]

theorem row_injective : Function.Injective row := fun l l' h =>
  Except.ok.inj (l.ofJson_row.symm.trans (h ▸ l'.ofJson_row))

theorem ReadFrom.onDay_iff {row : Record} (h : l.ReadFrom row) :
    Habits.OnDay habitId date row ↔ l.mark.At habitId date := by
  rw [Habits.OnDay, h.habitId, h.date]
  simp [Mark.At, mark]

theorem onDay_row_iff (l : HabitLog) : Habits.OnDay habitId date l.row ↔ l.mark.At habitId date :=
  (readFrom l.ofJson_row).onDay_iff

/-- The rows of entries are read as the entries. -/
theorem mapM_row (entries : List HabitLog) :
    (entries.map row).mapM (decodeRow .habitLogs ofJson) = .ok entries := by
  induction entries with
  | nil => rfl
  | cons first rest ih =>
    rw [List.map_cons, List.mapM_cons, ih, decodeRow, first.ofJson_row]
    rfl

/-! ### Entries that take the place of others -/

/-- The entries with one more: in the place of the first for the same habit and the same text of a
date, or behind them all. -/
def put (l : HabitLog) : List HabitLog → List HabitLog
  | [] => [l]
  | old :: rest => if old.mark.At l.habitId l.date then l :: rest else old :: put l rest

/-- The natural key of the row of an entry. -/
def key (l : HabitLog) : List (String × Json) :=
  [("habit_id", .text l.habitId), ("date", .text l.date)]

theorem keyOf_row (l : HabitLog) : keyOf .habitLogs l.row = .ok l.key := by
  have hhabit : l.row.get? "habit_id" = some (.text l.habitId) := l.get?_habitId
  simp [keyOf, Table.naturalKey, hhabit, l.get?_date, key, bind, Except.bind, pure, Except.pure]

theorem agrees_key_iff {row : Record} :
    agrees l.key row = true ↔ Habits.OnDay l.habitId l.date row :=
  Habits.holds_logOn_iff

theorem agrees_key : agrees l.key old.row = true ↔ old.mark.At l.habitId l.date :=
  agrees_key_iff.trans old.onDay_row_iff

theorem hasKey_row (l : HabitLog) : HasKey .habitLogs l.row := hasKey_of_keyOf l.keyOf_row

theorem keyed_row (l : HabitLog) : keyed .habitLogs l.row = l.key :=
  Except.ok.inj ((keyOf_eq_keyed l.hasKey_row).symm.trans l.keyOf_row)

theorem upsertRow_rows (l : HabitLog) (entries : List HabitLog) :
    upsertRow l.key l.row (entries.map row) = (put l entries).map row := by
  induction entries with
  | nil => rfl
  | cons old rest ih =>
    simp only [List.map_cons, upsertRow, put, agrees_key]
    split_ifs
    · rfl
    · rw [ih, List.map_cons]

theorem find?_put (l : HabitLog) (entries : List HabitLog) (habitId date : String) :
    (put l entries).find? (·.mark.At habitId date) =
      if l.mark.At habitId date then some l else entries.find? (·.mark.At habitId date) := by
  induction entries with
  | nil => by_cases h : l.mark.At habitId date <;> simp [put, h]
  | cons old rest ih =>
    unfold put
    by_cases hold : old.mark.At l.habitId l.date
    · -- the entry that is replaced is found for the same dates
      have hsame : old.mark.At habitId date ↔ l.mark.At habitId date := by
        obtain ⟨hhabit, hdate⟩ := hold
        simp only [Mark.At, hhabit, hdate]
        rfl
      rw [if_pos hold]
      by_cases h : l.mark.At habitId date <;> simp [h, hsame]
    · rw [if_neg hold, List.find?_cons, List.find?_cons, ih]
      by_cases h : old.mark.At habitId date
      · have hother : ¬ l.mark.At habitId date := by
          rintro ⟨rfl, rfl⟩
          exact hold h
        simp [h, hother]
      · simp [h]

theorem mem_of_mem_put (h : old ∈ put l entries) : old = l ∨ old ∈ entries := by
  have hrow : old.row ∈ (put l entries).map row := List.mem_map_of_mem h
  rw [← upsertRow_rows] at hrow
  exact (mem_of_mem_upsertRow hrow).imp (row_injective ·) (List.mem_map_of_injective row_injective).mp

/-- Whether entries are what is left of marks that were made one after the other: for a habit and a
text of a date there is one entry at most, and it is that of the last such mark. -/
structure Shows (entries : List HabitLog) (marks : List Mark) : Prop where
  apart : entries.Pairwise fun a b => ¬ b.mark.At a.habitId a.date
  last : ∀ habitId date, (entries.find? (·.mark.At habitId date)).map mark =
    Mark.lastAt habitId date marks

namespace Shows

theorem put (h : Shows entries marks) (l : HabitLog) :
    Shows (l.put entries) (marks ++ [l.mark]) where
  apart := by
    have hapart := h.apart
    clear h
    induction entries with
    | nil => exact List.pairwise_singleton ..
    | cons old rest ih =>
      obtain ⟨hold, hrest⟩ := List.pairwise_cons.mp hapart
      unfold HabitLog.put
      split_ifs with hsame
      · refine List.pairwise_cons.mpr ⟨fun entry hentry => ?_, hrest⟩
        rw [← hsame.1, ← hsame.2]
        exact hold entry hentry
      · refine List.pairwise_cons.mpr ⟨fun entry hentry => ?_, ih hrest⟩
        rcases mem_of_mem_put hentry with rfl | hentry
        · exact fun hat => hsame ⟨hat.1.symm, hat.2.symm⟩
        · exact hold entry hentry
  last habitId date := by
    rw [find?_put, Mark.lastAt_concat, ← h.last]
    split_ifs <;> rfl

/-- An entry is found for its habit and its date. -/
theorem find?_self (h : Shows entries marks) (hl : l ∈ entries) :
    entries.find? (·.mark.At l.habitId l.date) = some l := by
  have hapart := h.apart
  clear h
  induction entries with
  | nil => cases hl
  | cons first rest ih =>
    obtain ⟨hfirst, hrest⟩ := List.pairwise_cons.mp hapart
    rcases List.mem_cons.mp hl with rfl | hl
    · exact List.find?_cons_of_pos (decide_eq_true ⟨rfl, rfl⟩)
    · rw [List.find?_cons_of_neg, ih hl hrest]
      intro hat
      have hat := of_decide_eq_true hat
      exact hfirst l hl ⟨hat.1.symm, hat.2.symm⟩

theorem mem_marks (h : Shows entries marks) (hl : l ∈ entries) : l.mark ∈ marks := by
  have hlast := h.last l.habitId l.date
  rw [h.find?_self hl] at hlast
  exact (Mark.mem_of_lastAt hlast.symm).1

theorem exists_entry (h : Shows entries marks) {m : Mark} (hm : m ∈ marks) :
    ∃ l ∈ entries, l.mark.At m.habitId m.date := by
  obtain ⟨last, hlast⟩ := Mark.exists_lastAt hm
  rw [← h.last] at hlast
  obtain ⟨l, hl, -⟩ := Option.map_eq_some_iff.mp hlast
  have hat := List.find?_some hl
  exact ⟨l, List.mem_of_find?_eq_some hl, of_decide_eq_true hat⟩

end Shows
end HabitLog

/-! ### The log in a store -/

variable {store : Store} {entries : List HabitLog} {rows : List Record} {w : Workspace}

/-- Whether the rows of the log are those of entries. -/
def Store.HasLog (entries : List HabitLog) (store : Store) : Prop :=
  store.tableRows .habitLogs = .ok (entries.map HabitLog.row)

theorem Store.hasLog_written (entries : List HabitLog) (store : Store) :
    (store.written .habitLogs (entries.map HabitLog.row)).HasLog entries :=
  tableRows_plain (List.forall_mem_map.mpr fun l _ => l.plain_row)

/-- The row of an entry is put among those of the log. -/
theorem Store.apply_row (hquota : store.quota = none)
    (hrows : store.tableRows .habitLogs = .ok rows) (l : HabitLog) :
    store.apply (.insertFields .habitLogs l.columns .replace) =
      .ok (1, store.written .habitLogs (upsertRow l.key l.row rows)) := by
  have hvalue : Record.ofFields ((l.columns.map Prod.fst).zip (l.columns.map Prod.snd)) = l.row := by
    rw [List.zip_map', List.map_id', HabitLog.row]
  have happly := apply_upsert (show OnConflict.replace ≠ .append by decide) hquota hrows hvalue
    l.hasKey_row
  rw [if_neg (fun h => by cases h.2), l.keyed_row] at happly
  exact happly

namespace Habits

theorem getLog?_of_rows (hrows : store.tableRows .habitLogs = .ok rows) (habitId date : String) :
    getLog? habitId date store = match rows.find? (OnDay habitId date ·) with
      | some row => (decodeRow .habitLogs HabitLog.ofJson row).map some
      | none => .ok none := by
  have hfind : rows.find? (OnDay habitId date ·) = rows.find? fun row =>
      (Predicate.all [.hasText "habit_id" habitId, .hasText "date" date]).holds row := by
    congr 1
    funext row
    rw [Bool.eq_iff_iff, decide_eq_true_iff, holds_logOn_iff]
  rw [hfind]
  exact entity?_of_rows (logOn habitId date) rfl rfl rfl hrows

/-- The first row for a habit and a date is that of the first such entry. -/
theorem find?_rows (habitId date : String) (entries : List HabitLog) :
    (entries.map HabitLog.row).find? (OnDay habitId date ·) =
      (entries.find? (·.mark.At habitId date)).map HabitLog.row := by
  rw [List.find?_map]
  congr 2
  funext l
  rw [Function.comp_apply, Bool.eq_iff_iff, decide_eq_true_iff, decide_eq_true_iff]
  exact l.onDay_row_iff

theorem getLog?_eq (h : store.HasLog entries) (habitId date : String) :
    getLog? habitId date store = .ok (entries.find? (·.mark.At habitId date)) := by
  rw [getLog?_of_rows h, find?_rows]
  cases entries.find? (·.mark.At habitId date) with
  | none => rfl
  | some l =>
    simp only [Option.map_some, decodeRow, l.ofJson_row]
    rfl

/-- Where all rows of the log can be read, a day is completed if its first entry has it so. -/
theorem completedOn_of_rows {rows : List Record} {logs : List HabitLog}
    (h : rows.mapM (decodeRow .habitLogs HabitLog.ofJson) = .ok logs) (habitId : String)
    (day : Date) : completedOn habitId day rows =
      .ok ((logs.find? (·.mark.At habitId day.toText)).any (·.completed)) := by
  have hfound : ((logOn habitId day.toText).evaluate rows).mapM
      (decodeRow .habitLogs HabitLog.ofJson) =
        .ok (logs.filter (·.mark.At habitId day.toText)) := by
    refine mapM_filter_eq h fun row _ l hread => ?_
    rw [Bool.eq_iff_iff, decide_eq_true_iff]
    exact holds_logOn_iff.trans (HabitLog.readFrom (mapError_eq_ok.mp hread)).onDay_iff
  unfold completedOn
  rw [← List.head?_filter]
  cases hrows : (logOn habitId day.toText).evaluate rows with
  | nil =>
    rw [hrows] at hfound
    rw [← Except.ok.inj hfound]
    rfl
  | cons first rest =>
    rw [hrows, List.mapM_cons] at hfound
    obtain ⟨l, hfirst, hfound⟩ := bind_eq_ok.mp hfound
    obtain ⟨others, -, hlogs⟩ := bind_eq_ok.mp hfound
    rw [← Except.ok.inj hlogs]
    simp only [List.head?_cons, hfirst]
    rfl

theorem completedOn_eq (habitId : String) (day : Date) (entries : List HabitLog) :
    completedOn habitId day (entries.map HabitLog.row) =
      .ok ((entries.find? (·.mark.At habitId day.toText)).any (·.completed)) :=
  completedOn_of_rows (HabitLog.mapM_row entries) habitId day

/-- The entry that a day is noted by: one for the day that there is keeps its id. -/
def entryFor (found : Option HabitLog) (habitId date : String) (completed : Bool) (w : Workspace) :
    HabitLog :=
  ⟨match found with
    | some existing => existing.id
    | none => idOfNumber (w.issued + 1), habitId, date, completed⟩

/-- A workspace after rows of the log were written with an entry among them, which took a new id if
no entry was found. -/
def noted (found : Option HabitLog) (rows : List Record) (w : Workspace) : Workspace :=
  { w with
    store := w.store.written .habitLogs rows
    issued := w.issued + if found.isSome then 0 else 1 }

theorem log_eq (hquota : w.store.quota = none) (hrows : w.store.tableRows .habitLogs = .ok rows)
    {habitId date : String} {found : Option HabitLog} {l : HabitLog} {completed : Bool}
    (hfound : getLog? habitId date w.store = .ok found)
    (hl : entryFor found habitId date completed w = l) :
    log habitId date completed w = .ok l (noted found (upsertRow l.key l.row rows) w) := by
  have hentry : ∀ u : Workspace, u.store = w.store →
      (do
        let _ ← run (.insertFields .habitLogs l.columns .replace)
        return l : Action DatabaseError HabitLog) u =
      .ok l { u with store := w.store.written .habitLogs (upsertRow l.key l.row rows) } := by
    intro u hu
    change EStateM.bind (change _) _ u = _
    simp only [EStateM.bind, change, hu, apply_row hquota hrows]
    rfl
  change EStateM.bind (view (getLog? habitId date)) _ w = _
  simp only [EStateM.bind, view, hfound]
  cases found with
  | some existing =>
    subst hl
    exact hentry w rfl
  | none =>
    subst hl
    exact hentry { w with issued := w.issued + 1 } rfl

/-- A day is noted by one entry, which is put among the others. -/
theorem log_ok (hquota : w.store.quota = none) (h : w.store.HasLog entries) (habitId date : String)
    (completed : Bool) : ∃ l w', log habitId date completed w = .ok l w' ∧
      l.mark = ⟨habitId, date, completed⟩ ∧ w'.store.HasLog (l.put entries) := by
  refine ⟨_, _, log_eq hquota h (getLog?_eq h habitId date) rfl, rfl, ?_⟩
  rw [noted, HabitLog.upsertRow_rows]
  exact hasLog_written _ _

end Habits
end Planner

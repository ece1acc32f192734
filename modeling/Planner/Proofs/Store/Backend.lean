import Planner.Database
import Planner.Proofs.Outcome
import Planner.Proofs.Store.Rows

/-! The database on any host that keeps texts under keys: a statement that fails changes no text, one
that runs changes the text of its own table at most, and a batch that stops has run a prefix. -/
namespace Planner

/-- What a statement makes of the rows of its table: how many of them it touches, and the rows to be
written, if any are. -/
def Statement.effect (statement : Statement) (rows : List Record) :
    Except DatabaseError (Nat × Option (List Record)) :=
  match statement with
  | .insert table columns values onConflict =>
    let row := Record.ofFields (columns.zip values)
    if onConflict = .append then .ok (1, some (rows ++ [row]))
    else do
      let key ← Store.keyOf table row
      match Store.upserted key row onConflict rows with
      | some rows => return (1, some rows)
      | none => return (0, none)
  | .update _ assignments id => match Store.assignFirst assignments id rows with
    | some rows => .ok (1, some rows)
    | none => .ok (0, none)
  | .delete _ filter =>
    let remaining := Store.kept filter rows
    let removed := rows.length - remaining.length
    if removed = 0 then .ok (0, none) else .ok (removed, some remaining)
  | .select _ => .error (.wrongMode "SELECT" "execute")

/-- A host that keeps texts under keys. Reading may fail; a write that fails leaves every text as it
was, and one that is taken changes the text under its key only. -/
structure Backend (σ : Type) where
  get : String → σ → Except StoreError (Option String)
  set : String → String → σ → Except StoreError Unit × σ
  get_refused : ∀ {key text s e s'}, set key text s = (.error e, s') →
    ∀ other, get other s' = get other s
  get_taken : ∀ {key text s s'}, set key text s = (.ok (), s') →
    ∀ other, other ≠ key → get other s' = get other s

namespace Backend

open Outcome

variable {σ : Type} (B : Backend σ) {table : Table} {statement : Statement} {s s' : σ}

/-- The rows of a table; one that was never written has none. -/
def rows (table : Table) (s : σ) : Except DatabaseError (List Record) := do
  match ← (B.get table.name s).mapError .store with
  | none => return []
  | some text => (Store.rowsOfText table.name text).mapError .store

/-- Writes the rows of a table, if there are any to write. -/
def write (table : Table) (count : Nat) : Option (List Record) → σ → Except DatabaseError Nat × σ
  | none, s => (.ok count, s)
  | some rows, s => match B.set table.name (Store.textOfRows rows) s with
    | (.ok (), s) => (.ok count, s)
    | (.error e, s) => (.error (.store e), s)

/-- Runs a statement that changes a table: how many rows it touched, or why it failed. -/
def apply (statement : Statement) (s : σ) : Except DatabaseError Nat × σ :=
  match statement with
  | .select _ => (.error (.wrongMode "SELECT" "execute"), s)
  | statement => match B.rows statement.table s >>= statement.effect with
    | .ok (count, rows) => B.write statement.table count rows s
    | .error e => (.error e, s)

def execute (sql : String) (parameters : List Json) (s : σ) : Except DatabaseError Nat × σ :=
  match Sql.parse sql parameters with
  | .ok statement => B.apply statement s
  | .error e => (.error (.parse e), s)

/-- Runs statements in order up to the first that fails. -/
def applyFrom (index touched : Nat) : List Statement → σ → Except BatchError Nat × σ
  | [], s => (.ok touched, s)
  | statement :: rest, s => match B.apply statement s with
    | (.ok count, s) => applyFrom (index + 1) (touched + count) rest s
    | (.error cause, s) => (.error ⟨index, index, cause⟩, s)

def applyBatch (statements : List Statement) (s : σ) : Except BatchError Nat × σ :=
  B.applyFrom 0 0 statements s

/-- The state after all statements were applied, whether they failed or not. -/
def after (statements : List Statement) (s : σ) : σ :=
  statements.foldl (fun s statement => (B.apply statement s).2) s

/-- What comes of each statement when it is applied after all before it. -/
def results : List Statement → σ → List (Except DatabaseError Nat)
  | [], _ => []
  | statement :: rest, s => (B.apply statement s).1 :: results rest (B.apply statement s).2

/-! ### One statement -/

/-- Whether a statement of the table that ended so failed and changed no text, or ran and changed
no text but the table's. -/
def Atomic (table : Table) (s : σ) : Except DatabaseError Nat × σ → Prop
  | (.error _, s') => ∀ key, B.get key s' = B.get key s
  | (.ok _, s') => ∀ key, key ≠ table.name → B.get key s' = B.get key s

theorem atomic_write (table : Table) (count : Nat) (rows : Option (List Record)) (s : σ) :
    B.Atomic table s (B.write table count rows s) := by
  cases rows with
  | none => exact fun _ _ => rfl
  | some rows =>
    simp only [write]
    split
    · rename_i hset
      exact B.get_taken hset
    · rename_i hset
      exact B.get_refused hset

theorem atomic_apply (statement : Statement) (s : σ) :
    B.Atomic statement.table s (B.apply statement s) := by
  unfold apply
  split
  · exact fun _ => rfl
  · split
    · exact B.atomic_write ..
    · exact fun _ => rfl

/-- A text that cannot be read as a statement changes nothing. -/
theorem execute_error {sql : String} {parameters : List Json} {e : DatabaseError}
    (h : B.execute sql parameters s = (.error e, s')) : ∀ key, B.get key s' = B.get key s := by
  unfold execute at h
  split at h
  · rename_i statement _
    have hatomic := B.atomic_apply statement s
    rwa [h] at hatomic
  · cases h
    exact fun _ => rfl

theorem execute_ok {sql : String} {parameters : List Json} {count : Nat}
    (h : B.execute sql parameters s = (.ok count, s')) :
    ∃ statement, Sql.parse sql parameters = .ok statement ∧
      ∀ key, key ≠ statement.table.name → B.get key s' = B.get key s := by
  unfold execute at h
  split at h
  · rename_i statement hparse
    have hatomic := B.atomic_apply statement s
    rw [h] at hatomic
    exact ⟨statement, hparse, hatomic⟩
  · cases h

/-! ### Batches -/

variable {statements : List Statement} {index touched : Nat}

theorem applyFrom_ok {n : Nat} (h : B.applyFrom index touched statements s = (.ok n, s')) :
    s' = B.after statements s ∧
      ∃ counts : List Nat, B.results statements s = counts.map .ok ∧ n = touched + counts.sum := by
  induction statements generalizing index touched s with
  | nil =>
    cases h
    exact ⟨rfl, [], rfl, rfl⟩
  | cons statement rest ih =>
    unfold applyFrom at h
    split at h
    · rename_i count mid hrun
      obtain ⟨hafter, counts, hresults, rfl⟩ := ih h
      refine ⟨?_, count :: counts, ?_, ?_⟩
      · rw [hafter, after, after, List.foldl_cons, hrun]
      · rw [results, hrun, hresults, List.map_cons]
      · rw [List.sum_cons, Nat.add_assoc]
    · cases h

theorem applyFrom_error {e : BatchError}
    (h : B.applyFrom index touched statements s = (.error e, s')) :
    ∃ (counts : List Nat) (more : List (Except DatabaseError Nat)),
      B.results statements s = counts.map .ok ++ .error e.cause :: more ∧
      e.index = index + counts.length ∧ e.applied = index + counts.length ∧
      ∀ key, B.get key s' = B.get key (B.after (statements.take counts.length) s) := by
  induction statements generalizing index touched s with
  | nil => cases h
  | cons statement rest ih =>
    unfold applyFrom at h
    split at h
    · rename_i count mid hrun
      obtain ⟨counts, more, hresults, hindex, happlied, hget⟩ := ih h
      refine ⟨count :: counts, more, ?_, ?_, ?_, ?_⟩
      · rw [results, hrun, hresults, List.map_cons, List.cons_append]
      · rw [hindex, List.length_cons]
        omega
      · rw [happlied, List.length_cons]
        omega
      · rw [List.length_cons, List.take_succ_cons, after, List.foldl_cons, hrun]
        exact hget
    · rename_i cause mid hrun
      cases h
      refine ⟨[], B.results rest s', ?_, rfl, rfl, ?_⟩
      · rw [results, hrun]
        rfl
      · have hatomic := B.atomic_apply statement s
        rwa [hrun] at hatomic

theorem results_take (k : Nat) (statements : List Statement) (s : σ) :
    B.results (statements.take k) s = (B.results statements s).take k := by
  induction statements generalizing k s with
  | nil => simp [results]
  | cons statement rest ih =>
    cases k with
    | zero => rfl
    | succ k => rw [List.take_succ_cons, results, ih, results, List.take_succ_cons]

theorem error_notMem (counts : List Nat) (e : DatabaseError) :
    .error e ∉ counts.map (Except.ok (ε := DatabaseError)) := by
  simp

theorem applyBatch_ok {n : Nat} : B.applyBatch statements s = (.ok n, s') ↔
    ∃ counts : List Nat, B.results statements s = counts.map .ok ∧ n = counts.sum ∧
      s' = B.after statements s := by
  constructor
  · intro h
    obtain ⟨hafter, counts, hresults, hn⟩ := B.applyFrom_ok h
    exact ⟨counts, hresults, by rw [hn, Nat.zero_add], hafter⟩
  · rintro ⟨counts, hresults, rfl, rfl⟩
    cases hrun : B.applyBatch statements s with
    | mk result final =>
      cases result with
      | error e =>
        obtain ⟨others, more, hothers, -⟩ := B.applyFrom_error hrun
        have hmem : .error e.cause ∈ B.results statements s := by simp [hothers]
        rw [hresults] at hmem
        exact absurd hmem (error_notMem counts e.cause)
      | ok n =>
        obtain ⟨rfl, others, hothers, rfl⟩ := B.applyFrom_ok hrun
        have heq : counts = others :=
          List.map_injective_iff.mpr (fun _ _ => Except.ok.inj) (hresults.symm.trans hothers)
        rw [heq, Nat.zero_add]

/-- A batch that stops was stopped by the first statement that fails, and the statements before it
leave the same texts when they are applied alone. -/
structure StopsAt (statements : List Statement) (e : BatchError) (s s' : σ) (counts : List Nat)
    (more : List (Except DatabaseError Nat)) (mid : σ) : Prop where
  results : B.results statements s = counts.map .ok ++ .error e.cause :: more
  index : e.index = counts.length
  applied : e.applied = counts.length
  before : B.applyBatch (statements.take counts.length) s = (.ok counts.sum, mid)
  texts : ∀ key, B.get key s' = B.get key mid

theorem applyBatch_error {e : BatchError} (h : B.applyBatch statements s = (.error e, s')) :
    ∃ counts more mid, B.StopsAt statements e s s' counts more mid := by
  obtain ⟨counts, more, hresults, hindex, happlied, hget⟩ := B.applyFrom_error h
  rw [Nat.zero_add] at hindex happlied
  refine ⟨counts, more, _, hresults, hindex, happlied, ?_, hget⟩
  refine B.applyBatch_ok.mpr ⟨counts, ?_, rfl, rfl⟩
  rw [results_take, hresults, List.take_left' (by simp)]

theorem applyBatch_fails : (∃ e s', B.applyBatch statements s = (.error e, s')) ↔
    ∃ cause, .error cause ∈ B.results statements s := by
  constructor
  · rintro ⟨e, s', h⟩
    obtain ⟨counts, more, mid, hstops⟩ := B.applyBatch_error h
    exact ⟨e.cause, by simp [hstops.results]⟩
  · rintro ⟨cause, hmem⟩
    cases hrun : B.applyBatch statements s with
    | mk result final =>
      cases result with
      | error e => exact ⟨e, final, rfl⟩
      | ok n =>
        obtain ⟨counts, hresults, -⟩ := B.applyBatch_ok.mp hrun
        rw [hresults] at hmem
        exact absurd hmem (error_notMem counts cause)

end Backend

/-! ### The store as a host -/

namespace Store

open Outcome

variable {table : Table} {store store' : Store}

theorem put_texts {key text : String} (h : store.put key text = .ok store') :
    store'.texts = putText key text store.texts := by
  unfold put at h
  split at h <;> cases h <;> rfl

/-- A store is a host: what it refuses to write changes nothing. -/
def backend : Backend Store where
  get key store := .ok (store.text? key)
  set key text store := match store.put key text with
    | .ok store => (.ok (), store)
    | .error e => (.error e, store)
  get_refused := by
    intro key text store e store' h other
    split at h <;> cases h
    rfl
  get_taken := by
    intro key text store store' h other hne
    split at h
    · rename_i hput
      cases h
      simp only [text?, put_texts hput, lookup_putText_ne hne]
    · cases h

/-- The end of a step that leaves the store alone where it fails. -/
def ended {ε α : Type} (store : Store) : Except ε (α × Store) → Except ε α × Store
  | .ok (a, store) => (.ok a, store)
  | .error e => (.error e, store)

theorem rows_backend : backend.rows table store = store.tableRows table := by
  have hget : backend.get table.name store = .ok (store.text? table.name) := rfl
  simp only [Backend.rows, hget, tableRows, Store.rows]
  cases store.text? table.name <;> rfl

theorem write_backend (count : Nat) (rows : List Record) :
    backend.write table count (some rows) store =
      store.ended (do return (count, ← store.setTableRows table rows)) := by
  simp only [Backend.write, backend, setTableRows, setRows]
  cases store.put table.name (textOfRows rows) <;> rfl

/-- A statement is run on the store as its effect on the rows of its table. -/
theorem apply_eq_effect {statement : Statement} (h : ∀ s, statement ≠ .select s) :
    store.apply statement = (do
      match ← (store.tableRows statement.table >>= statement.effect) with
      | (count, some rows) => return (count, ← store.setTableRows statement.table rows)
      | (count, none) => return (count, store)) := by
  cases statement with
  | select s => exact absurd rfl (h s)
  | insert table columns values conflict =>
    simp only [apply, insert, Statement.table]
    cases store.tableRows table with
    | error e => rfl
    | ok rows =>
      dsimp only [bind, Except.bind, Statement.effect]
      split_ifs
      · rfl
      cases keyOf table (Record.ofFields (columns.zip values)) with
      | error e => rfl
      | ok key =>
        dsimp only
        cases upserted key (Record.ofFields (columns.zip values)) conflict rows <;> rfl
  | update table assignments id =>
    simp only [apply, update, Statement.table]
    cases store.tableRows table with
    | error e => rfl
    | ok rows =>
      dsimp only [bind, Except.bind, Statement.effect]
      cases assignFirst assignments id rows <;> rfl
  | delete table filter =>
    simp only [apply, delete, Statement.table]
    cases store.tableRows table with
    | error e => rfl
    | ok rows =>
      dsimp only [bind, Except.bind, Statement.effect]
      split_ifs <;> rfl

/-- A statement that ran read its table, and wrote it or left the store alone. -/
theorem apply_cases {statement : Statement} {count : Nat}
    (hrun : store.apply statement = .ok (count, store')) :
    ∃ rows written, store.tableRows statement.table = .ok rows ∧
      statement.effect rows = .ok (count, written) ∧
      match written with
      | some rows => store.setTableRows statement.table rows = .ok store'
      | none => store' = store := by
  by_cases hselect : ∃ s, statement = .select s
  · obtain ⟨s, rfl⟩ := hselect
    cases hrun
  · rw [apply_eq_effect fun s hs => hselect ⟨s, hs⟩] at hrun
    obtain ⟨⟨touched, written⟩, heffect, hrun⟩ := bind_eq_ok.mp hrun
    obtain ⟨rows, hrows, heffect⟩ := bind_eq_ok.mp heffect
    cases written with
    | none =>
      cases hrun
      exact ⟨rows, none, hrows, heffect, rfl⟩
    | some written =>
      obtain ⟨store'', hset, hrun⟩ := bind_eq_ok.mp hrun
      cases hrun
      exact ⟨rows, some written, hrows, heffect, hset⟩

/-- A statement runs as what it makes of the rows of its table. -/
theorem apply_of_effect {statement : Statement} {count : Nat} {rows : List Record}
    {written : Option (List Record)}
    (hrows : store.tableRows statement.table = .ok rows)
    (heffect : statement.effect rows = .ok (count, written)) :
    store.apply statement = match written with
      | some rows => do return (count, ← store.setTableRows statement.table rows)
      | none => .ok (count, store) := by
  have hselect : ∀ s, statement ≠ .select s := by
    rintro s rfl
    cases heffect
  have hbind : (store.tableRows statement.table >>= statement.effect) = .ok (count, written) :=
    Outcome.bind_eq_ok.mpr ⟨rows, hrows, heffect⟩
  rw [apply_eq_effect hselect, hbind]
  cases written <;> rfl

theorem apply_backend (statement : Statement) (store : Store) :
    backend.apply statement store = store.ended (store.apply statement) := by
  unfold Backend.apply
  split
  · rfl
  · rename_i hselect
    rw [apply_eq_effect hselect, rows_backend]
    cases store.tableRows statement.table >>= statement.effect with
    | error e => rfl
    | ok effect =>
      obtain ⟨count, rows⟩ := effect
      cases rows with
      | none => rfl
      | some rows => exact write_backend count rows

theorem execute_backend (sql : String) (parameters : List Json) (store : Store) :
    backend.execute sql parameters store = store.ended (store.execute sql parameters) := by
  unfold Backend.execute Store.execute
  cases Sql.parse sql parameters with
  | error e => rfl
  | ok statement => exact apply_backend statement store

theorem applyBatch_backend (statements : List Statement) (store : Store) :
    backend.applyBatch statements store = store.applyBatch statements := by
  have hfrom : ∀ index touched, backend.applyFrom index touched statements store =
      store.applyFrom index touched statements := by
    induction statements generalizing store with
    | nil => exact fun _ _ => rfl
    | cons statement rest ih =>
      intro index touched
      unfold Backend.applyFrom applyFrom
      rw [apply_backend]
      cases store.apply statement with
      | error e => rfl
      | ok result => exact ih result.2 _ _
  exact hfrom 0 0

end Store

/-- A statement that fails changes no text, and one that runs changes the text of its own table at
most. A batch stops exactly when a statement fails after all those before it, at the first such
statement; otherwise it touches as many rows as its statements do. -/
structure Backend.AllOrNothing {σ : Type} (B : Backend σ) (s : σ) : Prop where
  failed : ∀ statement e s', B.apply statement s = (.error e, s') →
    ∀ key, B.get key s' = B.get key s
  ran : ∀ statement count s', B.apply statement s = (.ok count, s') →
    ∀ key, key ≠ statement.table.name → B.get key s' = B.get key s
  sqlFailed : ∀ sql parameters e s', B.execute sql parameters s = (.error e, s') →
    ∀ key, B.get key s' = B.get key s
  sqlRan : ∀ sql parameters count s', B.execute sql parameters s = (.ok count, s') →
    ∃ statement, Sql.parse sql parameters = .ok statement ∧
      ∀ key, key ≠ statement.table.name → B.get key s' = B.get key s
  stops_iff : ∀ statements, (∃ e s', B.applyBatch statements s = (.error e, s')) ↔
    ∃ cause, .error cause ∈ B.results statements s
  stops : ∀ statements e s', B.applyBatch statements s = (.error e, s') →
    ∃ counts more mid, B.StopsAt statements e s s' counts more mid
  runs_iff : ∀ statements n s', B.applyBatch statements s = (.ok n, s') ↔
    ∃ counts : List Nat, B.results statements s = counts.map .ok ∧ n = counts.sum ∧
      s' = B.after statements s

/-- What runs on a store runs on it as on a host. -/
structure Store.RunsAsBackend (store : Store) : Prop where
  apply : ∀ statement, Store.backend.apply statement store = store.ended (store.apply statement)
  execute : ∀ sql parameters, Store.backend.execute sql parameters store =
    store.ended (store.execute sql parameters)
  applyBatch : ∀ statements, Store.backend.applyBatch statements store = store.applyBatch statements

/-- Statements and batches do all or nothing on every host, of which the store is one. -/
theorem Backend.atomic {σ : Type} (B : Backend σ) (s : σ) :
    B.AllOrNothing s ∧ ∀ store : Store, store.RunsAsBackend := by
  refine ⟨⟨fun statement e s' h => ?_, fun statement count s' h => ?_,
    fun _ _ _ _ => B.execute_error, fun _ _ _ _ => B.execute_ok,
    fun _ => B.applyBatch_fails, fun _ _ _ => B.applyBatch_error, fun _ _ _ => B.applyBatch_ok⟩,
    fun store => ⟨(store.apply_backend ·), (store.execute_backend · ·), (store.applyBatch_backend ·)⟩⟩
  all_goals
    have hatomic := B.atomic_apply statement s
    rwa [h] at hatomic

/-- A host that takes one more write, and insertions into two tables. -/
def lastWrite : Store := ⟨[], some ⟨1, "full"⟩⟩

def insertions : List Statement :=
  [.insert .tasks ["id"] [.text "a"] .append, .insert .notes ["id"] [.text "b"] .append]

/-- The host after the first insertion. -/
def lastWritten : Store :=
  ⟨[("tasks", Store.textOfRows [[("id", .text "a")]])], some ⟨0, "full"⟩⟩

theorem Backend.atomic_lastWrite :
    Store.backend.applyBatch insertions lastWrite =
      (.error ⟨1, 1, .store (.refused "full")⟩, lastWritten) ∧
    ∃ count mid, Store.backend.applyBatch (insertions.take 1) lastWrite = (.ok count, mid) ∧
      ∀ key, Store.backend.get key lastWritten = Store.backend.get key mid := by
  have hrun : Store.backend.applyBatch insertions lastWrite =
      (.error ⟨1, 1, .store (.refused "full")⟩, lastWritten) := rfl
  obtain ⟨counts, more, mid, hstops⟩ := (Backend.atomic Store.backend lastWrite).1.stops _ _ _ hrun
  have hbefore := hstops.before
  rw [← hstops.index] at hbefore
  exact ⟨hrun, _, mid, hbefore, hstops.texts⟩

end Planner

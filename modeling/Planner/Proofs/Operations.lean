import Planner.Proofs.CommandLine.Runs
import Planner.Proofs.Transfer.Keys

/-! Runs of operations: no two rows of a table come to have the same natural key. -/
namespace Planner

open Store Outcome
open CommandLine (storeAfter fresh)

variable {ε α β : Type} {table : Table} {store store' : Store} {w : Workspace}
  {statement : Statement} {operation : Operation} {count : Nat}

/-! ### The parts of an operation -/

/-- A result that is made of what work gave changes nothing. -/
theorem stateAfter_bind_pure {σ : Type} (work : EStateM ε σ α) (f : α → β) (s : σ) :
    stateAfter ((work >>= fun a => pure (f a)) s) = stateAfter (work s) := by
  change stateAfter (EStateM.bind work _ s) = _
  unfold EStateM.bind
  cases work s <;> rfl

namespace Workspace

theorem stateAfter_run (statement : Statement) (w : Workspace) :
    stateAfter (run statement w) = { w with store := storeAfter statement w.store } := by
  unfold run change storeAfter
  dsimp only
  cases w.store.apply statement <;> rfl

theorem keysUnique_run (h : KeysUnique w.store) (hrun : ∀ count store',
    w.store.apply statement = .ok (count, store') → KeysUnique store') :
    KeysUnique (stateAfter (run statement w)).store := by
  rw [stateAfter_run]
  change KeysUnique (storeAfter statement w.store)
  unfold storeAfter
  cases happly : w.store.apply statement with
  | error e => exact h
  | ok result => exact hrun _ _ happly

/-- The natural key is the id. -/
abbrev ById (table : Table) : Prop := table.naturalKey = ["id"]

end Workspace

open Workspace

theorem steadyKey_of_plain {row : Record} (h : ∀ field ∈ row, field.2.Plain) :
    SteadyKey table row :=
  fun _ _ _ hv => (h _ (Record.mem_of_get? hv)).reread_eq

theorem steadyKey_ofFields {fields : List (String × Json)} (h : ∀ field ∈ fields, field.2.Plain) :
    SteadyKey table (.ofFields fields) :=
  steadyKey_of_plain fun field hf =>
    Record.foldl_set (fun _ value => value.Plain) (by simp) h field hf

/-- Whether no stored row has the id. -/
def Store.Unused (name : String) (store : Store) : Prop :=
  ∀ table rows, store.tableRows table = .ok rows → ∀ row ∈ rows, ∀ v ∈ row.get? "id",
    v.same (.text name) = false

instance (name : String) (store : Store) : Decidable (store.Unused name) :=
  decidable_of_iff (∀ table ∈ Table.all, ∀ rows ∈ (store.tableRows table).toOption, ∀ row ∈ rows,
    ∀ v ∈ row.get? "id", v.same (.text name) = false) <|
      Table.forall_mem_all.trans <| forall_congr' fun table => by
        cases store.tableRows table <;> simp [Except.toOption]

/-- Whether an action hands out one id and adds a row with it, and does nothing else. -/
def Adds (table : Table) (action : Action DatabaseError α) : Prop :=
  ∀ w : Workspace, ∃ columns, Columns (idOfNumber (w.issued + 1)) columns ∧
    stateAfter (action w) =
      stateAfter (append table columns { w with issued := w.issued + 1 })

theorem Tasks.create_adds (new : NewTask) : Adds .tasks (create new) :=
  fun _ => ⟨_, Task.columns_id _, stateAfter_bind_pure _ _ _⟩

theorem Tasks.addSubtask_adds (taskId title : String) : Adds .subtasks (addSubtask taskId title) :=
  fun _ => ⟨_, Subtask.columns_id _, stateAfter_bind_pure _ _ _⟩

theorem Notes.create_adds (new : NewNote) : Adds .notes (create new) :=
  fun _ => ⟨_, Note.columns_id _, stateAfter_bind_pure _ _ _⟩

theorem Events.create_adds (new : NewEvent) : Adds .events (create new) :=
  fun _ => ⟨_, Event.columns_id _, stateAfter_bind_pure _ _ _⟩

theorem Habits.create_adds (new : NewHabit) : Adds .habits (create new) :=
  fun _ => ⟨_, Habit.columns_id _, stateAfter_bind_pure _ _ _⟩

theorem Routines.create_adds (new : NewRoutine) : Adds .routines (create new) :=
  fun _ => ⟨_, Routine.columns_id _, stateAfter_bind_pure _ _ _⟩

theorem stateAfter_append (columns : List (String × Json)) (w : Workspace) :
    stateAfter (append table columns w) =
      { w with store := storeAfter (.insertFields table columns .append) w.store } :=
  (stateAfter_bind_pure _ _ w).trans (stateAfter_run _ w)

/-- A row with an id that no stored row has. -/
theorem keysUnique_append (htable : ById table) {name : String} {columns : List (String × Json)}
    (hcolumns : Columns name columns) (h : KeysUnique w.store) (hnew : w.store.Unused name) :
    KeysUnique (stateAfter (append table columns w)).store := by
  have hplain := hcolumns.plain
  obtain ⟨others, rfl, hothers⟩ := hcolumns
  have hid : (Record.ofFields (("id", .text name) :: others)).get? "id" = some (.text name) :=
    Record.get?_ofFields_head hothers.names
  have hkey : HasKey table (.ofFields (("id", .text name) :: others)) := by
    intro column hc
    rw [htable, List.mem_singleton] at hc
    rw [hc, Record.has, hid]
    rfl
  have hapart : ∀ rows, w.store.tableRows table = .ok rows → ∀ old ∈ rows,
      ¬ SameKey table old (.ofFields (("id", .text name) :: others)) := by
    intro rows hrows old hold hsame
    have hcolumn : "id" ∈ table.naturalKey := by rw [htable]; exact List.mem_singleton_self _
    obtain ⟨v, hv, u, hu, huv⟩ :=
      (sameKey_iff ((h.unique table rows hrows).hasKey old hold)).mp hsame "id" hcolumn
    cases hid.symm.trans hu
    have hvu : v.same (.text name) = true := Json.same_iff.mpr (Json.same_iff.mp huv).symm
    rw [hnew table rows hrows old hold v hv] at hvu
    cases hvu
  have hrun : KeysUnique (stateAfter (run (.insertFields table _ .append) w)).store :=
    keysUnique_run h fun _ _ => h.append hkey (steadyKey_ofFields hplain)
      (fun field hf => (hplain field hf).sorted) hapart
  rwa [stateAfter_append, ← stateAfter_run]

namespace Adds

variable {action : Action DatabaseError α}

theorem issued (h : Adds table action) (w : Workspace) :
    (stateAfter (action w)).issued = w.issued + 1 := by
  obtain ⟨columns, -, hafter⟩ := h w
  rw [hafter, stateAfter_append]

theorem keysUnique (h : Adds table action) (htable : ById table) (hw : KeysUnique w.store)
    (hnew : w.store.Unused (idOfNumber (w.issued + 1))) :
    KeysUnique (stateAfter (action w)).store := by
  obtain ⟨columns, hcolumns, hafter⟩ := h w
  rw [hafter]
  exact keysUnique_append (w := { w with issued := w.issued + 1 }) htable hcolumns hw hnew

end Adds

/-! ### Operations and their runs -/

namespace Operation

/-- Whether the rows that an operation brings in from elsewhere are in order, and unless they are
refused have keys that are read back as themselves, in each table no two the same. -/
def BringsKeysApart : Operation → Prop
  | restore document =>
    (∀ table, ∀ row ∈ Transfer.rowsOf document.data table, (Json.object row).Sorted) ∧
      (Transfer.Keyed document.data → Transfer.KeysApart document.data)
  | restoreText text => ∀ document, Transfer.documentOfText text = .ok document →
    Transfer.Keyed document.data → Transfer.KeysApart document.data
  | _ => True

/-- Whether every id that an operation hands out is new. -/
def TakesNewIds (w : Workspace) (operation : Operation) : Prop :=
  ∀ n, w.issued < n → n ≤ (operation.on w).issued → w.store.Unused (idOfNumber n)

instance (w : Workspace) (operation : Operation) : Decidable (operation.TakesNewIds w) :=
  inferInstanceAs (Decidable (∀ n, w.issued + 1 ≤ n → n ≤ (operation.on w).issued →
    w.store.Unused (idOfNumber n)))

/-- Whether an operation adds a row with an id of its own. -/
def Appends : Operation → Prop
  | createTask _ | addSubtask .. | createNote _ | createEvent _ | createHabit _ | createRoutine _ =>
    True
  | _ => False

/-- A statement that sets other columns, removes rows, or puts a row in the place of the one with its
key leaves no two rows with the same. -/
theorem keysUnique_apply (hissues : operation.Issues statement) (happends : ¬ operation.Appends)
    (hrestores : ¬ operation.Restores) (h : KeysUnique store)
    (hrun : store.apply statement = .ok (count, store')) : KeysUnique store' := by
  have hupdate : ∀ {table : Table} {id : String} {assignments : List (String × Json)},
      ById table → Others assignments →
        store.apply (.update table assignments (.text id)) = .ok (count, store') →
          KeysUnique store' := by
    intro table id assignments htable hothers
    refine h.update (fun field hf => ?_) fun field hf => (hothers.plain field hf).sorted
    rw [htable]
    simpa using hothers.names field hf
  have hreplace : ∀ {table : Table} {fields : List (String × Json)},
      (∀ field ∈ fields, field.2.Plain) →
        store.apply (.insertFields table fields .replace) = .ok (count, store') →
          KeysUnique store' :=
    fun hplain => h.replace (steadyKey_ofFields hplain) fun field hf => (hplain field hf).sorted
  cases operation with
  | createTask | addSubtask | createNote | createEvent | createHabit | createRoutine =>
    exact absurd trivial happends
  | updateTask id patch | updateNote id patch | updateEvent id patch =>
    obtain ⟨now, rfl⟩ := hissues
    exact hupdate rfl (patch.others.append (others_updatedAt now)) hrun
  | updateHabit id patch | updateRoutine id patch =>
    subst hissues
    exact hupdate rfl patch.others hrun
  | setSubtaskCompleted =>
    subst hissues
    exact hupdate rfl ⟨by simp, by simp [Json.plain_ofBool]⟩ hrun
  | deleteTask | deleteHabit => rcases hissues with rfl | rfl <;> exact h.delete hrun
  | deleteSubtask | deleteNote | deleteEvent | deleteRoutine =>
    subst hissues
    exact h.delete hrun
  | logHabit =>
    obtain ⟨entry, -, rfl⟩ := hissues
    exact hreplace entry.columns_id.plain hrun
  | setSetting key value =>
    subst hissues
    exact hreplace (plain_setting _ _).fields hrun
  | restore | restoreText => exact absurd trivial hrestores

/-- An operation leaves no two rows of a table with the same natural key. -/
theorem keysUnique_on (operation : Operation) (h : KeysUnique w.store)
    (hapart : operation.BringsKeysApart) (hnew : operation.TakesNewIds w) :
    KeysUnique (operation.on w).store := by
  have hadds : ∀ {table : Table} {α : Type} {action : Action DatabaseError α},
      Adds table action → operation.on w = stateAfter (action w) → ById table →
        KeysUnique (operation.on w).store := by
    intro table α action hadds hon htable
    rw [hon]
    refine hadds.keysUnique htable h (hnew (w.issued + 1) (Nat.lt_succ_self _) ?_)
    rw [hon, hadds.issued]
  cases operation with
  | createTask new => exact hadds (Tasks.create_adds new) rfl rfl
  | addSubtask taskId title => exact hadds (Tasks.addSubtask_adds taskId title) rfl rfl
  | createNote new => exact hadds (Notes.create_adds new) rfl rfl
  | createEvent new => exact hadds (Events.create_adds new) rfl rfl
  | createHabit new => exact hadds (Habits.create_adds new) rfl rfl
  | createRoutine new => exact hadds (Routines.create_adds new) rfl rfl
  | restore document => exact Transfer.keysUnique_restore h document hapart.1 hapart.2
  | restoreText text => exact Transfer.keysUnique_restoreText h text hapart
  | _ =>
    exact (reaches_on _ w).invariant (I := KeysUnique)
      (fun _ _ _ _ hissues hstore hrun => keysUnique_apply hissues id id hstore hrun) h

end Operation

/-- An operation at a moment, and the number of ids that were handed out before it. -/
structure Turn where
  now : Instant
  issued : Nat
  operation : Operation

namespace Turn

/-- The workspace in which a turn is taken. -/
def start (w : Workspace) (turn : Turn) : Workspace :=
  { w with now := turn.now, issued := turn.issued }

def on (w : Workspace) (turn : Turn) : Workspace := turn.operation.on (turn.start w)

end Turn

/-- The workspace after turns in order. -/
def afterTurns (turns : List Turn) (w : Workspace) : Workspace := turns.foldl Turn.on w

theorem keysUnique_fresh (now : Instant) : KeysUnique (fresh now).store := by
  obtain ⟨store, hprepare, hstore⟩ := prepare_holds holds_empty
  have hfresh : (fresh now).store = store := congrArg Prod.snd hprepare
  rw [hfresh]
  refine ⟨hstore.takesWrites, fun table rows hrows => ?_⟩
  cases (hstore.tableRows table).symm.trans hrows
  by_cases hsettings : table = .settings
  · rw [hsettings, Function.update_self]
    exact ⟨by decide, fun row hrow => steadyKey_of_plain (plain_defaultSettings row hrow).fields,
      by decide⟩
  · rw [Function.update_of_ne hsettings]
    exact unique_nil table

/-- A run of operations keeps the natural keys unique. -/
theorem keysUnique_afterTurns {turns : List Turn} (h : KeysUnique w.store)
    (hapart : ∀ turn ∈ turns, turn.operation.BringsKeysApart)
    (hnew : ∀ n (turn : Turn), turns[n]? = some turn →
      turn.operation.TakesNewIds (turn.start (afterTurns (turns.take n) w))) :
    KeysUnique (afterTurns turns w).store := by
  induction turns generalizing w with
  | nil => exact h
  | cons first rest ih =>
    obtain ⟨hfirst, hrest⟩ := List.forall_mem_cons.mp hapart
    exact ih (first.operation.keysUnique_on h hfirst (hnew 0 first rfl)) hrest
      fun n => hnew (n + 1)

/-- In every state of a run from a planner that was just made, no two rows of a table have the same
natural key, provided that every id that is handed out is new and that the documents that are
restored have keys that are read back as themselves, no two the same. -/
theorem keysDistinct_throughout (now : Instant) (turns : List Turn)
    (hapart : ∀ turn ∈ turns, turn.operation.BringsKeysApart)
    (hnew : ∀ n (turn : Turn), turns[n]? = some turn →
      turn.operation.TakesNewIds (turn.start (afterTurns (turns.take n) (fresh now))))
    (n : Nat) (table : Table) (rows : List Record)
    (hrows : (afterTurns (turns.take n) (fresh now)).store.tableRows table = .ok rows) :
    (∀ row ∈ rows, HasKey table row) ∧ KeysDistinct table rows := by
  have hunique : KeysUnique (afterTurns (turns.take n) (fresh now)).store := by
    refine keysUnique_afterTurns (keysUnique_fresh now)
      (fun turn hturn => hapart turn (List.mem_of_mem_take hturn)) fun m turn hturn => ?_
    rw [List.getElem?_take] at hturn
    split_ifs at hturn with hm
    rw [List.take_take, Nat.min_eq_left hm.le]
    exact hnew m turn hturn
  obtain ⟨hkey, -, hdistinct⟩ := hunique.unique table rows hrows
  exact ⟨hkey, hdistinct⟩

/-- A document with a subtask. -/
def packedText : String :=
  "\x7b\"data\":\x7b\"subtasks\":[\x7b\"id\":\"a\"\x7d]\x7d\x7d"

/-- The document is restored, and a subtask is added. -/
def packing : List Turn :=
  [⟨⟨0⟩, 0, .restoreText packedText⟩, ⟨⟨1⟩, 0, .addSubtask "t" "Pack"⟩]

theorem keysDistinct_packing : ∃ rows,
    (afterTurns (packing.take 2) (fresh ⟨0⟩)).store.tableRows .subtasks = .ok rows ∧
      rows.length = 2 ∧ KeysDistinct .subtasks rows := by
  obtain ⟨rows, hrows, hlength⟩ : ∃ rows,
      (afterTurns (packing.take 2) (fresh ⟨0⟩)).store.tableRows .subtasks = .ok rows ∧
        decide (rows.length = 2) = true := exists_of_any (by decide +kernel)
  have hpacked : ∀ document, Transfer.documentOfText packedText = .ok document →
      Transfer.KeysApart document.data := by
    intro document hdocument
    obtain ⟨packed, hpacked, hapart⟩ : ∃ packed, Transfer.documentOfText packedText = .ok packed ∧
        decide (Transfer.KeysApart packed.data) = true := exists_of_any (by decide +kernel)
    cases hdocument.symm.trans hpacked
    exact of_decide_eq_true hapart
  have hrestored : (packing[0].operation).TakesNewIds (packing[0].start (fresh ⟨0⟩)) := by
    decide +kernel
  have hadded : (packing[1].operation).TakesNewIds
      (packing[1].start (afterTurns (packing.take 1) (fresh ⟨0⟩))) := by decide +kernel
  refine ⟨rows, hrows, of_decide_eq_true hlength, ?_⟩
  refine (keysDistinct_throughout ⟨0⟩ packing ?_ ?_ 2 .subtasks rows hrows).2
  · refine List.forall_mem_cons.mpr ⟨fun document hdocument _ => hpacked document hdocument, ?_⟩
    exact List.forall_mem_singleton.mpr trivial
  · rintro (_ | _ | n) turn hturn
    · cases hturn
      exact hrestored
    · cases hturn
      exact hadded
    · cases hturn

/-- A document with two tasks whose ids are doubles next to each other. -/
def clashingText : String :=
  "\x7b\"data\":\x7b\"tasks\":[\x7b\"id\":9.0085445678884372\x7d,\x7b\"id\":9.008544567888435\x7d]\x7d\x7d"

/-- The ids of a document differ, but are the same when they have been restored: the first is read
back as the second. -/
theorem not_keysDistinct_clashing :
    (∃ document, Transfer.documentOfText clashingText = .ok document ∧
      ∀ table, KeysDistinct table (Transfer.rowsOf document.data table)) ∧
    (Operation.restoreText clashingText).TakesNewIds (fresh ⟨0⟩) ∧
    ∃ rows, (afterTurns [⟨⟨0⟩, 0, .restoreText clashingText⟩] (fresh ⟨0⟩)).store.tableRows .tasks =
      .ok rows ∧ ¬ KeysDistinct .tasks rows := by
  obtain ⟨document, hdocument, hdistinct⟩ : ∃ document,
      Transfer.documentOfText clashingText = .ok document ∧
        decide (∀ table ∈ Table.all, KeysDistinct table (Transfer.rowsOf document.data table)) =
          true :=
    exists_of_any (by decide +kernel)
  obtain ⟨rows, hrows, hclash⟩ : ∃ rows,
      (afterTurns [⟨⟨0⟩, 0, .restoreText clashingText⟩] (fresh ⟨0⟩)).store.tableRows .tasks =
        .ok rows ∧ decide (¬ KeysDistinct .tasks rows) = true := exists_of_any (by decide +kernel)
  have hnew : (Operation.restoreText clashingText).TakesNewIds (fresh ⟨0⟩) := by decide +kernel
  exact ⟨⟨document, hdocument, Table.forall_mem_all.mp (of_decide_eq_true hdistinct)⟩, hnew,
    rows, hrows, of_decide_eq_true hclash⟩

end Planner

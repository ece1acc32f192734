import Planner.Proofs.DueDates
import Planner.Proofs.Occurrences

/-! Listings of some tasks and events. In every state of a run in which no document is restored they
are parts of the full listings: what is found in the columns is what the entities show. -/
namespace Planner

open Outcome Select
open CommandLine (fresh)

variable {row : Record} {column : String} {store : Store} {rows : List Record}

/-- In a row of plain values a column that is read as a member of a choice has the name of just that
member. -/
theorem Record.Plain.hasText_name {α : Type} [Choice α] [Named α] [DecidableEq α]
    (hrow : row.Plain) {a : α} (h : row.required column Choice.read = .ok a) (b : α) :
    (Predicate.hasText column (Choice.name b)).holds row = decide (a = b) := by
  unfold Record.required at h
  cases hget : row.get? column with
  | none =>
    rw [hget] at h
    cases h
  | some value =>
    rw [hget] at h
    have hplain : value.Plain := hrow.fields _ (Record.mem_of_get? hget)
    cases Choice.eq_text_name hplain.1 h
    rw [Bool.eq_iff_iff, Predicate.holds_hasText, hget, decide_eq_true_iff]
    simp [Choice.name_injective.eq_iff]

/-! ### Tasks -/

/-- Whether a text without its percent signs stands in the title or the description of a task, in
letters of any case. Nothing stands in an empty title or description. -/
def Task.Mentions (query : String) (task : Task) : Prop :=
  ∃ text ∈ task.title :: task.description.toList,
    text ≠ "" ∧ Text.lower (Predicate.needle query) <:+: Text.lower text.toList

theorem Task.shows_iff (query : String) (task : Task) :
    task.shows query = true ↔ task.Mentions query := by
  unfold Task.shows Task.Mentions
  rw [Bool.or_eq_true, Predicate.likeHolds_text, List.exists_mem_cons_iff]
  refine or_congr Iff.rfl ?_
  cases task.description with
  | none => simp [Json.ofOptionalText, Predicate.likeHolds, Predicate.likeText]
  | some text => simp [Json.ofOptionalText, Predicate.likeHolds_text]

instance (query : String) : DecidablePred (Task.Mentions query) := fun task =>
  decidable_of_iff _ (task.shows_iff query)

namespace Tasks

variable {tasks : List Task}

theorem search_eq_mentions (h : Tasks.all store = .ok tasks) (query : String) :
    Tasks.search query store = .ok (tasks.filter (·.Mentions query)) := by
  rw [search_eq_filter h]
  congr 2
  funext task
  rw [Bool.eq_iff_iff, task.shows_iff, decide_eq_true_iff]

/-- The tasks with a name in a column are those that show its member there, if the rows are plain. -/
theorem select_name {α : Type} [Choice α] [Named α] [DecidableEq α] (field : Task → α)
    (hrows : store.tableRows .tasks = .ok rows) (hplain : ∀ row ∈ rows, row.Plain)
    (h : Tasks.all store = .ok tasks)
    (hfield : ∀ row (task : Task), task.ReadFrom row →
      row.required column Choice.read = .ok (field task))
    (hsubtasks : ∀ (task : Task) subtasks, field { task with subtasks } = field task) (a : α) :
    Tasks.select ((everyTask.filtered (.hasText column (Choice.name a))).descending "created_at")
      store = .ok (tasks.filter (field · = a)) := by
  refine Store.readEach_filtered_of_rows (everyTask.descending "created_at") hrows h rfl rfl ?_
  intro row hrow task hread
  obtain ⟨read, hfrom, htask⟩ := readFrom_hydrate hread
  rw [(hplain row hrow).hasText_name (hfield row read hfrom), htask]
  exact congrArg (fun b => decide (b = a)) (hsubtasks read task.subtasks).symm

end Tasks

/-! ### Events -/

namespace Events

variable {events : List Event}

theorem readFrom_row {event : Event} (h : decodeRow .events Event.ofJson row = .ok event) :
    event.ReadFrom row := Event.readFrom (mapError_eq_ok.mp h)

theorem ofType_eq_filter (hrows : store.tableRows .events = .ok rows)
    (hplain : ∀ row ∈ rows, row.Plain) (h : Events.all store = .ok events) (type : EventType) :
    Events.ofType type store = .ok (events.filter (·.type = type)) := by
  refine Store.readEach_filtered_of_rows (everyEvent.ascending "start_time") hrows h rfl rfl ?_
  intro row hrow event hread
  exact (hplain row hrow).hasText_name (readFrom_row hread).type type

/-- The events of a span of time, whatever the rows hold. -/
theorem startingIn_eq_filter (h : Events.all store = .ok events) (start stop : String) :
    Events.startingIn start stop store =
      .ok (events.filter fun event => start ≤ event.startTime ∧ event.startTime ≤ stop) := by
  refine Store.readEach_filtered (everyEvent.ascending "start_time") h rfl rfl ?_
  intro row event hread
  rw [Bool.eq_iff_iff, Predicate.range_texts (readFrom_row hread).startTime, decide_eq_true_iff]

end Events

/-- All tasks and all events of a store are listed, and the tasks with a priority, with a status or
with a text in them, the events of a type and those of a span of time are those of them that show it,
in the same order and with the same subtasks. -/
structure Lists (store : Store) (tasks : List Task) (events : List Event) : Prop where
  allTasks : Tasks.all store = .ok tasks
  allEvents : Events.all store = .ok events
  ofPriority : ∀ priority,
    Tasks.ofPriority priority store = .ok (tasks.filter (·.priority = priority))
  ofStatus : ∀ status, Tasks.ofStatus status store = .ok (tasks.filter (·.status = status))
  mentioning : ∀ query, Tasks.search query store = .ok (tasks.filter (·.Mentions query))
  ofType : ∀ type, Events.ofType type store = .ok (events.filter (·.type = type))
  startingIn : ∀ start stop, Events.startingIn start stop store =
    .ok (events.filter fun event => start ≤ event.startTime ∧ event.startTime ≤ stop)

/-- The listings agree in every state of a run from a planner that was just made, in which no document
is restored. -/
theorem filters_agree (now : Instant) (turns : List Turn)
    (hrestores : ∀ turn ∈ turns, ¬ turn.operation.Restores) :
    ∃ tasks events, Lists (afterTurns turns (fresh now)).store tasks events := by
  obtain ⟨content, scheme, h, hfit, -⟩ :=
    fit_afterTurns hrestores (Store.holdsPlain_fresh now) fit_fresh settings_fresh
  obtain ⟨tasks, htasks⟩ := (hfit.legible h.holds).tasks
  obtain ⟨events, hevents⟩ := (hfit.legible h.holds).events
  have hrows := h.holds.tableRows
  refine ⟨tasks, events, htasks, hevents, ?_, ?_, Tasks.search_eq_mentions htasks,
    Events.ofType_eq_filter (hrows .events) (h.plain .events) hevents,
    Events.startingIn_eq_filter hevents⟩
  · exact Tasks.select_name Task.priority (hrows .tasks) (h.plain .tasks) htasks
      (fun _ _ hfrom => hfrom.priority) fun _ _ => rfl
  · exact Tasks.select_name Task.status (hrows .tasks) (h.plain .tasks) htasks
      (fun _ _ hfrom => hfrom.status) fun _ _ => rfl

/-- A task that gets a subtask and is changed then, and an event. -/
def planning : List Turn := [
  ⟨⟨0⟩, 0, .createTask { title := "Pack the TENT" }⟩,
  ⟨⟨1⟩, 1, .addSubtask (idOfNumber 1) "Wash it"⟩,
  ⟨⟨2⟩, 2, .updateTask (idOfNumber 1) { priority := some .high }⟩,
  ⟨⟨3⟩, 2, .createEvent { title := "Trip", startTime := "2024-05-15", type := .other }⟩]

theorem filters_agree_planning : ∃ (tasks : List Task) (events : List Event),
    Tasks.all (afterTurns planning (fresh ⟨0⟩)).store = .ok tasks ∧
      Tasks.ofPriority .high (afterTurns planning (fresh ⟨0⟩)).store =
        .ok (tasks.filter (·.priority = .high)) ∧
      Tasks.search "%tent" (afterTurns planning (fresh ⟨0⟩)).store =
        .ok (tasks.filter (·.Mentions "%tent")) ∧
      Events.ofType .other (afterTurns planning (fresh ⟨0⟩)).store =
        .ok (events.filter (·.type = .other)) := by
  have hrestores : ∀ turn ∈ planning, ¬ turn.operation.Restores := by
    simp [planning, Operation.Restores]
  obtain ⟨tasks, events, hlists⟩ := filters_agree ⟨0⟩ planning hrestores
  exact ⟨tasks, events, hlists.allTasks, hlists.ofPriority .high, hlists.mentioning "%tent",
    hlists.ofType .other⟩

end Planner

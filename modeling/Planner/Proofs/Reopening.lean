import Planner.Proofs.Operations
import Planner.Proofs.Store.Opening

/-! A planner that is closed and opened again during a run: as long as it has settings, nothing that
comes later is any different. -/
namespace Planner

open Store Outcome Workspace

/-- Work on a planner, whatever comes of it. -/
structure Job where
  {ε α : Type}
  action : Action ε α

/-- What came of work. -/
structure Answer where
  {ε α : Type}
  result : Except ε α

/-- The result of work that ends in a state. -/
def resultOf {ε σ α : Type} : EStateM.Result ε σ α → Except ε α
  | .ok a _ => .ok a
  | .error e _ => .error e

namespace Job

def answer (w : Workspace) (job : Job) : Answer := ⟨resultOf (job.action w)⟩

/-- The workspace after a job, whether it went well or not. -/
def on (w : Workspace) (job : Job) : Workspace := stateAfter (job.action w)

end Job

def Operation.job : Operation → Job
  | createTask new => ⟨Tasks.create new⟩
  | updateTask id patch => ⟨Tasks.update id patch⟩
  | deleteTask id => ⟨Tasks.delete id⟩
  | addSubtask taskId title => ⟨Tasks.addSubtask taskId title⟩
  | setSubtaskCompleted id completed => ⟨Tasks.setSubtaskCompleted id completed⟩
  | deleteSubtask id => ⟨Tasks.deleteSubtask id⟩
  | createNote new => ⟨Notes.create new⟩
  | updateNote id patch => ⟨Notes.update id patch⟩
  | deleteNote id => ⟨Notes.delete id⟩
  | createEvent new => ⟨Events.create new⟩
  | updateEvent id patch => ⟨Events.update id patch⟩
  | deleteEvent id => ⟨Events.delete id⟩
  | createHabit new => ⟨Habits.create new⟩
  | updateHabit id patch => ⟨Habits.update id patch⟩
  | deleteHabit id => ⟨Habits.delete id⟩
  | logHabit habitId date completed => ⟨Habits.log habitId date completed⟩
  | createRoutine new => ⟨Routines.create new⟩
  | updateRoutine id patch => ⟨Routines.update id patch⟩
  | deleteRoutine id => ⟨Routines.delete id⟩
  | setSetting key value => ⟨Preferences.set key value⟩
  | restore document => ⟨Transfer.restore document⟩
  | restoreText text => ⟨Transfer.restoreText text⟩

theorem Operation.on_eq_job (operation : Operation) (w : Workspace) :
    operation.on w = operation.job.on w := by
  cases operation <;> rfl

/-- What can be asked of a planner that is open: to look something up, to run a statement, a batch
of them or the text of one, or to carry out an operation. -/
inductive Call : Type 1
  | look {ε α : Type} (read : Store → Except ε α)
  | statement (statement : Statement)
  | batch (statements : List Statement)
  | sql (text : String) (parameters : List Json)
  | operation (operation : Operation)

namespace Call

def job : Call → Job
  | look read => ⟨view read⟩
  | statement issued => ⟨run issued⟩
  | batch statements => ⟨attempt (·.applyBatch statements)⟩
  | sql text parameters => ⟨change (·.execute text parameters)⟩
  | operation called => called.job

/-- Whatever is asked of a planner, its store changes by statements alone. -/
theorem reaches_on (call : Call) (w : Workspace) :
    w.store.Reaches (fun _ => True) (call.job.on w).store := by
  cases call with
  | look read => exact keeps_view (I := Reached w.store fun _ => True) read w .refl
  | statement issued =>
    have hrun : Keeps (Reached w.store fun _ => True) (run issued) := reached_run trivial
    exact hrun w .refl
  | batch statements =>
    have hbatch : w.store.Reaches (fun _ => True) (w.store.applyBatch statements).2 :=
      Reaches.applyFrom (fun _ _ => trivial) 0 0 .refl
    simp only [job, Job.on, attempt]
    generalize w.store.applyBatch statements = outcome at hbatch
    obtain ⟨result, store⟩ := outcome
    cases result <;> exact hbatch
  | sql text parameters =>
    simp only [job, Job.on, change]
    cases hrun : w.store.execute text parameters with
    | error e => exact .refl
    | ok result =>
      obtain ⟨statement, -, happly⟩ := bind_eq_ok.mp hrun
      exact Reaches.step .refl trivial happly
  | operation called =>
    have hreaches : w.store.Reaches (fun _ => True) (called.on w).store :=
      (called.reaches_on w).mono fun _ _ => trivial
    rwa [called.on_eq_job] at hreaches

end Call

/-- What happens to an open planner: it is closed and opened again, or something is asked of it at a
moment, after so many ids were handed out. -/
inductive Happening : Type 1
  | reopening
  | call (now : Instant) (issued : Nat) (call : Call)

namespace Happening

def on (w : Workspace) : Happening → Workspace
  | reopening => { w with store := w.store.prepare.2 }
  | call now issued asked => asked.job.on { w with now, issued }

def isCall : Happening → Bool
  | reopening => false
  | call .. => true

end Happening

/-- The workspace after happenings in order. -/
def afterHappenings (happenings : List Happening) (w : Workspace) : Workspace :=
  happenings.foldl Happening.on w

/-- The answers to what is asked in the course of happenings. -/
def answers : List Happening → Workspace → List Answer
  | [], _ => []
  | .reopening :: rest, w => answers rest (Happening.reopening.on w)
  | .call now issued asked :: rest, w =>
    asked.job.answer { w with now, issued } ::
      answers rest ((Happening.call now issued asked).on w)

/-- The same happenings, but the planner stays open. -/
def calls (happenings : List Happening) : List Happening := happenings.filter Happening.isCall

/-- Whether the planner has settings whenever it is opened again. -/
def FurnishedThroughout (happenings : List Happening) (w : Workspace) : Prop :=
  ∀ n, happenings[n]? = some .reopening →
    (afterHappenings (happenings.take n) w).store.Furnished

variable {w : Workspace} {happenings : List Happening} {store : Store} {rows : List Record}

/-- A planner is still open after anything that happens. -/
theorem Happening.opened_on (h : w.store.Opened) (happening : Happening) :
    (happening.on w).store.Opened := by
  cases happening with
  | reopening => exact h.prepare
  | call now issued asked => exact h.reaches (asked.reaches_on { w with now, issued })

theorem opened_afterHappenings (h : w.store.Opened) (happenings : List Happening) :
    (afterHappenings happenings w).store.Opened := by
  induction happenings generalizing w with
  | nil => exact h
  | cons first rest ih => exact ih (first.opened_on h)

/-- Where there are settings a planner is opened again without a change. -/
theorem reopening_on_eq_self (h : w.store.Opened) (hfurnished : w.store.Furnished) :
    Happening.reopening.on w = w := by
  rw [Happening.on, h.prepare_furnished hfurnished]

/-- Reopenings where there are settings go unnoticed. -/
theorem calls_same (h : w.store.Opened) (hfurnished : FurnishedThroughout happenings w) :
    answers happenings w = answers (calls happenings) w ∧
      afterHappenings happenings w = afterHappenings (calls happenings) w := by
  induction happenings generalizing w with
  | nil => exact ⟨rfl, rfl⟩
  | cons first rest ih =>
    have hrest : FurnishedThroughout rest (first.on w) := fun n => hfurnished (n + 1)
    obtain ⟨hanswers, hafter⟩ := ih (first.opened_on h) hrest
    cases first with
    | reopening =>
      rw [reopening_on_eq_self h (hfurnished 0 rfl)] at hanswers hafter
      have hon := reopening_on_eq_self h (hfurnished 0 rfl)
      refine ⟨?_, ?_⟩
      · rw [answers, hon]
        exact hanswers
      · rw [afterHappenings, List.foldl_cons, hon]
        exact hafter
    | call now issued asked => exact ⟨congrArg (List.cons _) hanswers, hafter⟩

/-- A planner is opened again without failing wherever it has settings. -/
theorem prepare_reopening (h : w.store.Opened) (hfurnished : FurnishedThroughout happenings w)
    (n : Nat) (hn : happenings[n]? = some .reopening) :
    (afterHappenings (happenings.take n) w).store.prepare.1 = .ok () := by
  rw [(opened_afterHappenings h _).prepare_furnished (hfurnished n hn)]

/-- Whether it makes no difference in a run that the planner is opened again in places where it has
settings; where it has none it gets the default ones then, and nothing else. -/
structure Unnoticed (happenings : List Happening) (w : Workspace) : Prop where
  sameAnswers : FurnishedThroughout happenings w →
    answers happenings w = answers (calls happenings) w
  sameEnd : FurnishedThroughout happenings w →
    afterHappenings happenings w = afterHappenings (calls happenings) w
  opens : FurnishedThroughout happenings w → ∀ n, happenings[n]? = some .reopening →
    (afterHappenings (happenings.take n) w).store.prepare.1 = .ok ()
  seeds : (afterHappenings happenings w).store.rows Table.settings.name = .ok [] →
    (afterHappenings happenings w).store.Seeds

/-- Opening a planner with the given settings writes no more than the text of no rows for a missing
table and the default settings where there are none, and opening it twice is opening it once. On a
host that takes every write all of this is written, and the planner may be opened again. -/
structure OpensQuietly (store : Store) (rows : List Record) : Prop where
  writes : ∀ key, store.prepare.2.text? key = store.text? key ∨
    (store.text? key = none ∧ (∃ table : Table, table.name = key) ∧
      store.prepare.2.text? key = some (textOfRows [])) ∨
    key = Table.settings.name ∧ rows = [] ∧
      store.prepare.2.text? key = some (textOfRows defaultSettings)
  twice : store.prepare.2.prepare = store.prepare
  opened : store.quota = none → ∃ opened, store.prepare = (.ok (), opened) ∧ store.OpensTo opened ∧
    ∀ (w : Workspace) (happenings : List Happening), w.store = opened → Unnoticed happenings w

/-- A planner is opened quietly when its settings are absent or readable. -/
theorem reopening_transparent (hrows : store.rows Table.settings.name = .ok rows) :
    OpensQuietly store rows := by
  refine ⟨fun key => ?_, prepare_again store, fun hquota => ?_⟩
  · refine (text?_prepare store key).imp_right (Or.imp_right fun ⟨hkey, hempty, htext⟩ => ?_)
    exact ⟨hkey, Except.ok.inj (hrows.symm.trans hempty), htext⟩
  · obtain ⟨opened, hprepare, hopened, hfurnished⟩ := prepare_takesWrites hquota hrows
    refine ⟨opened, hprepare, opensTo hprepare hopened hfurnished, ?_⟩
    rintro w happenings rfl
    exact ⟨fun hthroughout => (calls_same hopened hthroughout).1,
      fun hthroughout => (calls_same hopened hthroughout).2, prepare_reopening hopened,
      (opened_afterHappenings hopened happenings).seeds⟩

/-- A planner with tasks, and notes that are a text that was cut off, but no other table. -/
def halfStore : Store := ⟨[("tasks", "[]"), ("notes", "[")], none⟩

/-- A task is added, and the planner is opened again before the tasks are listed. -/
def visits : List Happening := [
  .call ⟨0⟩ 0 (.operation (.createTask { title := "Pack" })),
  .reopening,
  .call ⟨1⟩ 1 (.look Tasks.all)]

/-- All settings are removed. -/
def emptying : List Happening := [.call ⟨3⟩ 1 (.statement (.delete .settings none))]

theorem reopening_transparent_visits : ∃ opened, halfStore.prepare = (.ok (), opened) ∧
    answers visits ⟨opened, ⟨0⟩, 0⟩ = answers (calls visits) ⟨opened, ⟨0⟩, 0⟩ ∧
    (afterHappenings emptying ⟨opened, ⟨0⟩, 0⟩).store.Seeds := by
  have hrows : halfStore.rows Table.settings.name = .ok [] := rfl
  obtain ⟨opened, hprepare, -, hruns⟩ := (reopening_transparent hrows).opened rfl
  have hopened : opened = halfStore.prepare.2 := by rw [hprepare]
  have hfurnished : FurnishedThroughout visits ⟨halfStore.prepare.2, ⟨0⟩, 0⟩ := by
    rintro (_ | _ | _ | n) hn
    · cases hn
    · decide +kernel
    · cases hn
    · cases hn
  have hempty : (afterHappenings emptying ⟨halfStore.prepare.2, ⟨0⟩, 0⟩).store.rows
      Table.settings.name = .ok [] := by
    obtain ⟨rows, hrows, hnone⟩ := exists_of_any (p := List.isEmpty)
      (x := (afterHappenings emptying ⟨halfStore.prepare.2, ⟨0⟩, 0⟩).store.rows Table.settings.name)
      (by decide +kernel)
    rw [hrows, List.isEmpty_iff.mp hnone]
  have hvisits := hruns ⟨opened, ⟨0⟩, 0⟩ visits rfl
  have hemptying := hruns ⟨opened, ⟨0⟩, 0⟩ emptying rfl
  subst hopened
  exact ⟨_, hprepare, hvisits.sameAnswers hfurnished, hemptying.seeds hempty⟩

end Planner

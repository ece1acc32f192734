import Planner.Proofs.CommandLine.Commands
import Planner.Proofs.Sql.Soundness

/-! Runs of commands: every table can be read throughout unless a query writes too deep a value. -/
namespace Planner.CommandLine

open Json Outcome

variable {sql : String} {parameters : Option String} {values : List Json} {statement : Statement}
  {t : Terminal} {w : Workspace}

/-- Whether the values are those that a query is given. -/
def Given : Option String → List Json → Prop
  | none, values => values = []
  | some given, values => Json.readList given = .ok values

theorem Given.sorted (h : Given parameters values) : ∀ v ∈ values, v.Sorted := by
  cases parameters with
  | none =>
    cases h
    simp
  | some given => exact fun v hv => (readList_fits h v hv).1

theorem Given.unique {others : List Json} (h : Given parameters values)
    (ho : Given parameters others) : values = others := by
  cases parameters with
  | none => exact Eq.trans h (Eq.symm ho)
  | some given => exact Except.ok.inj (Eq.trans (Eq.symm h) ho)

theorem Given.readParameters (h : Given parameters values) :
    readParameters parameters t = .ok values t := by
  cases parameters with
  | none =>
    cases h
    rfl
  | some given =>
    have hread : Json.readList given = .ok values := h
    simp only [CommandLine.readParameters, hread]
    rfl

/-- Parameters that are not read are refused. -/
theorem readParameters_refused (h : ∀ values, ¬ Given parameters values) :
    ∃ e, readParameters parameters t = .error e t := by
  cases parameters with
  | none => exact absurd rfl (h [])
  | some given =>
    cases hread : Json.readList given with
    | ok values => exact absurd hread (h values)
    | error fault =>
      refine ⟨.badParameters fault, ?_⟩
      simp only [readParameters, hread]
      rfl

/-- The store after a statement: what it wrote, or what was there when it failed. -/
def storeAfter (statement : Statement) (store : Store) : Store :=
  match store.apply statement with
  | .ok (_, store') => store'
  | .error _ => store

/-- Whether a terminal works on the given store. -/
def On (store : Store) (t : Terminal) : Prop := t.workspace.store = store

variable {store : Store}

theorem on_print (line : String) : Keeps (On store) (print line) := fun _ h => h

theorem on_look {α : Type} (read : Store → Except DatabaseError α) :
    Keeps (On store) (look read) := by
  intro t h
  unfold look inDatabase onWorkspace Workspace.view
  cases read t.workspace.store <;> exact h

/-- A statement is run, and what follows leaves the store alone. -/
theorem on_run {next : Nat → Work Unit}
    (hnext : ∀ count, Keeps (On (storeAfter statement t.workspace.store)) (next count)) :
    On (storeAfter statement t.workspace.store)
      (stateAfter ((inDatabase (Workspace.run statement) >>= next) t)) := by
  refine Keeps.stateAfter_bind ?_ hnext
  unfold storeAfter inDatabase onWorkspace Workspace.run Workspace.change
  dsimp only
  cases t.workspace.store.apply statement <;> rfl

/-- A query leaves the store that its statement leaves. -/
theorem query_store (hgiven : Given parameters values)
    (hparse : Sql.parse sql values = .ok statement) :
    (stateAfter (query sql parameters t)).workspace.store =
      storeAfter statement t.workspace.store := by
  change On _ (stateAfter (EStateM.bind _ _ t))
  simp only [EStateM.bind, hgiven.readParameters, hparse]
  cases statement with
  | select s => exact (on_look _).bind (fun _ => on_print _) t rfl
  | insert | update | delete => exact on_run fun _ => on_print _

/-- A query that is not given values or a statement changes nothing. -/
theorem query_refused (h : ∀ values statement, Given parameters values →
    Sql.parse sql values ≠ .ok statement) :
    (stateAfter (query sql parameters t)).workspace.store = t.workspace.store := by
  change On _ (stateAfter (EStateM.bind _ _ t))
  by_cases hgiven : ∃ values, Given parameters values
  · obtain ⟨values, hgiven⟩ := hgiven
    simp only [EStateM.bind, hgiven.readParameters]
    cases hparse : Sql.parse sql values with
    | ok statement => exact absurd hparse (h values statement hgiven)
    | error e => rfl
  · push Not at hgiven
    obtain ⟨e, herror⟩ := readParameters_refused (t := t) hgiven
    simp only [EStateM.bind, herror]
    rfl

/-- What happens to a workspace: it is opened anew, or a command is run on it. -/
inductive Step
  | opening
  | command (now : Instant) (files : Files) (noteFolder : String) (command : Command)

/-- The workspace after a step, whether its command went well or not. -/
def Step.on (w : Workspace) : Step → Workspace
  | .opening => { w with store := w.store.prepare.2 }
  | .command now files noteFolder called =>
    (stateAfter (run called ⟨{ w with now }, files, "", noteFolder⟩)).workspace

/-- The workspace after steps in order. -/
def after (steps : List Step) (w : Workspace) : Workspace := steps.foldl Step.on w

/-- A workspace that was opened for the first time. -/
def fresh (now : Instant) : Workspace := ⟨Store.empty.prepare.2, now, 0⟩

/-- Whether a query touches a row and sets one of its columns too deep. -/
def Command.Overfills (w : Workspace) : Command → Prop
  | .query sql parameters => ∃ values statement count store', Given parameters values ∧
    Sql.parse sql values = .ok statement ∧ w.store.apply statement = .ok (count, store') ∧
      count ≠ 0 ∧ Store.rowDepth < depthFields statement.fields
  | _ => False

def Step.Overfills (w : Workspace) : Step → Prop
  | .opening => False
  | .command _ _ _ called => called.Overfills w

theorem healthy_fresh (now : Instant) : (fresh now).Healthy := by
  obtain ⟨store, hprepare, hstore⟩ := Store.prepare_holds Store.holds_empty
  unfold fresh Workspace.Healthy
  rw [hprepare]
  exact hstore.healthy

theorem not_overfills {command : Command} (h : ¬ command.IsQuery) : ¬ command.Overfills w := by
  cases command with
  | query => exact absurd trivial h
  | _ => exact id

theorem ofLiterals_sorted : Sql.OfLiterals Json.Sorted :=
  ⟨trivial, fun _ => trivial, fun _ => trivial, fun _ => trivial⟩

/-- A query leaves every table readable unless it overfills one. -/
theorem query_readable (h : t.workspace.Healthy) :
    (stateAfter (query sql parameters t)).workspace.store.quota = none ∧
      ((stateAfter (query sql parameters t)).workspace.store.Readable ↔
        ¬ (Command.query sql parameters).Overfills t.workspace) := by
  by_cases hparsed : ∃ values statement, Given parameters values ∧
      Sql.parse sql values = .ok statement
  · obtain ⟨values, statement, hgiven, hparse⟩ := hparsed
    obtain ⟨content, hcontent⟩ := h.exists_holds
    have hvalues := (Sql.parse_statementOf ofLiterals_sorted hgiven.sorted hparse).2.2
    rw [query_store hgiven hparse]
    unfold storeAfter
    cases hrun : t.workspace.store.apply statement with
    | error e =>
      refine ⟨h.1, iff_of_true h.2 ?_⟩
      rintro ⟨values', statement', count, store', hgiven', hparse', hrun', -⟩
      cases hgiven.unique hgiven'
      cases hparse.symm.trans hparse'
      cases hrun.symm.trans hrun'
    | ok result =>
      obtain ⟨count, store⟩ := result
      obtain ⟨hquota, hreadable⟩ := Store.apply_readable hcontent hvalues hrun
      refine ⟨hquota, hreadable.trans ⟨?_, fun hnot => ?_⟩⟩
      · rintro hwritten ⟨values', statement', count', store', hgiven', hparse', hrun', hcount, hdeep⟩
        cases hgiven.unique hgiven'
        cases hparse.symm.trans hparse'
        cases hrun.symm.trans hrun'
        exact hwritten.elim hcount (Nat.not_le.mpr hdeep)
      · by_contra hwritten
        push Not at hwritten
        exact hnot ⟨values, statement, count, store, hgiven, hparse, hrun, hwritten⟩
  · push Not at hparsed
    rw [query_refused hparsed]
    refine ⟨h.1, iff_of_true h.2 ?_⟩
    rintro ⟨values, statement, -, -, hgiven, hparse, -⟩
    exact hparsed values statement hgiven hparse

/-- After one step every table can be read unless the step overfills one. -/
theorem step_readable (h : w.Healthy) (step : Step) :
    (step.on w).store.quota = none ∧ ((step.on w).store.Readable ↔ ¬ step.Overfills w) := by
  cases step with
  | opening =>
    obtain ⟨content, hw⟩ := h.exists_holds
    obtain ⟨store, hprepare, hstore⟩ := Store.prepare_holds hw
    have hon : (Step.on w .opening).store = store := congrArg Prod.snd hprepare
    rw [hon]
    exact ⟨hstore.takesWrites, iff_of_true hstore.healthy.2 id⟩
  | command now files noteFolder command =>
    by_cases hquery : command.IsQuery
    · cases command with
      | query sql parameters => exact query_readable (t := ⟨{ w with now }, files, "", noteFolder⟩) h
      | _ => exact hquery.elim
    · obtain ⟨hquota, hreadable⟩ := keeps_run hquery ⟨{ w with now }, files, "", noteFolder⟩ h
      exact ⟨hquota, iff_of_true hreadable (not_overfills hquery)⟩

theorem readable_after_iff (steps : List Step) (h : w.Healthy) :
    (∀ n, (after (steps.take n) w).store.Readable) ↔
      ∀ n (step : Step), steps[n]? = some step → ¬ step.Overfills (after (steps.take n) w) := by
  induction steps generalizing w with
  | nil => exact iff_of_true (fun n => by simpa [after] using h.2) (by simp)
  | cons first rest ih =>
    obtain ⟨hquota, hreadable⟩ := step_readable h first
    constructor
    · intro hall n step hstep
      have hfirst : (first.on w).store.Readable := hall 1
      cases n with
      | zero =>
        cases hstep
        exact hreadable.mp hfirst
      | succ n => exact (ih ⟨hquota, hfirst⟩).mp (fun n => hall (n + 1)) n step hstep
    · intro hall n
      have hfirst : (first.on w).store.Readable := hreadable.mpr (hall 0 first rfl)
      cases n with
      | zero => exact h.2
      | succ n => exact (ih ⟨hquota, hfirst⟩).mpr (fun n => hall (n + 1)) n

/-- Every table can be read throughout a run exactly when no query of it overfills one. -/
theorem readable_throughout_iff (now : Instant) (steps : List Step) :
    (∀ n, (after (steps.take n) (fresh now)).store.Readable) ↔
      ∀ n (step : Step), steps[n]? = some step →
        ¬ step.Overfills (after (steps.take n) (fresh now)) :=
  readable_after_iff steps (healthy_fresh now)

/-- A query that inserts a task whose id is a list around 125 lists. -/
def deepInsertion : Step :=
  .command ⟨0⟩ [] "" <| .query "INSERT INTO tasks (id) VALUES (?)"
    (some (String.ofList (List.replicate 127 '[' ++ List.replicate 127 ']')))

/-- After that query the tasks cannot be read any more. -/
theorem not_readable_deepInsertion : ¬ (after [deepInsertion] (fresh ⟨0⟩)).store.Readable := by
  intro h
  obtain ⟨rows, hrows⟩ := h .tasks
  have hlost : ((after [deepInsertion] (fresh ⟨0⟩)).store.tableRows .tasks).toOption.isNone := by
    decide +kernel
  rw [hrows] at hlost
  cases hlost

end Planner.CommandLine

import Planner.Proofs.DueDates
import Planner.Proofs.Habits.Log
import Planner.Proofs.Habits.Streak
import Planner.Proofs.Store.Footprint

/-! Runs of commands in which habits are logged. The entries of a habit go by the texts of their
dates, not by the days: a day has as many entries as there are texts for it that were given, and
only the one that is written as days are printed is looked up for the day and counts for the
streak. -/
namespace Planner

open Store Outcome

namespace Mark

variable {habitId : String} {day : Date} {m : Mark} {marks : List Mark}

/-- Whether a mark is of a habit and for a day, in whatever way that is written. -/
def On (habitId : String) (day : Date) (m : Mark) : Prop :=
  m.habitId = habitId ∧ Date.ofText m.date = .ok day

instance (habitId : String) (day : Date) : DecidablePred (On habitId day) := fun m =>
  decidable_of_iff (m.habitId = habitId ∧ (Date.ofText m.date).toOption = some day) <|
    and_congr_right fun _ => by cases Date.ofText m.date <;> simp [Except.toOption]

/-- The last of the marks of a habit for a day, in whatever way that is written. -/
def lastOn (habitId : String) (day : Date) (marks : List Mark) : Option Mark :=
  marks.reverse.find? (·.On habitId day)

theorem At.on (h : m.At habitId day.toText) : m.On habitId day :=
  ⟨h.1, h.2 ▸ day.ofText_toText⟩

/-- The last mark for a day is the last one for the text of the day just if it has that text. -/
theorem lastAt_eq_iff (h : lastOn habitId day marks = some m) :
    lastAt habitId day.toText marks = some m ↔ m.date = day.toText := by
  obtain ⟨hon, later, earlier, hmarks, hlater⟩ := List.find?_eq_some_iff_append.mp h
  refine ⟨fun hlast => (mem_of_lastAt hlast).2.2, fun hdate => ?_⟩
  refine List.find?_eq_some_iff_append.mpr ⟨?_, later, earlier, hmarks, fun a ha => ?_⟩
  · exact decide_eq_true ⟨(of_decide_eq_true hon).1, hdate⟩
  · have hnot := hlater a ha
    simp only [Bool.not_eq_true', decide_eq_false_iff_not] at hnot ⊢
    exact mt At.on hnot

end Mark

/-- Whether two rows of the log are of one habit and for one day, in whatever way it is written. -/
def SameHabitDay (a b : Record) : Prop := ∃ habitId day text text',
  a.get? "habit_id" = some (.text habitId) ∧ b.get? "habit_id" = some (.text habitId) ∧
  a.get? "date" = some (.text text) ∧ b.get? "date" = some (.text text') ∧
  Date.ofText text = .ok day ∧ Date.ofText text' = .ok day

namespace HabitLog

variable {entries : List HabitLog} {marks : List Mark}

theorem sameHabitDay_row {a b : HabitLog} : SameHabitDay a.row b.row ↔
    ∃ day, a.mark.On a.habitId day ∧ b.mark.On a.habitId day := by
  have hhabit : ∀ l : HabitLog, l.row.get? "habit_id" = some (.text l.habitId) :=
    fun l => l.get?_habitId
  unfold SameHabitDay
  simp only [hhabit, get?_date, Option.some.injEq, Json.text.injEq]
  constructor
  · rintro ⟨_, day, _, _, rfl, hb, rfl, rfl, hday, hday'⟩
    exact ⟨day, ⟨rfl, hday⟩, hb, hday'⟩
  · rintro ⟨day, ⟨-, hday⟩, hb, hday'⟩
    exact ⟨_, day, _, _, rfl, hb, rfl, rfl, hday, hday'⟩

/-- There is one entry for a habit and a day at most just if no two marks of a habit have one day
written in different ways. -/
theorem Shows.pairwise_iff (h : Shows entries marks) :
    ((entries.map row).Pairwise fun a b => ¬ SameHabitDay a b) ↔
      ∀ m ∈ marks, ∀ m' ∈ marks, ∀ day, m.On m.habitId day → m'.On m.habitId day →
        m.date = m'.date := by
  rw [List.pairwise_map]
  simp only [sameHabitDay_row, not_exists, not_and]
  constructor
  · intro hapart m hm m' hm' day hday hday'
    obtain ⟨l, hl, hat⟩ := h.exists_entry hm
    obtain ⟨l', hl', hat'⟩ := h.exists_entry hm'
    by_contra hne
    have hdiffer : l ≠ l' := by
      rintro rfl
      exact hne (hat.2.symm.trans hat'.2)
    have : Std.Symm fun a b : HabitLog =>
        ∀ day, a.mark.On a.habitId day → ¬ b.mark.On a.habitId day :=
      ⟨fun a b hab day hb ha => hab day ⟨rfl, ha.2⟩ ⟨ha.1.symm, hb.2⟩⟩
    refine hapart.forall hl hl' hdiffer day ⟨rfl, ?_⟩ ⟨?_, ?_⟩
    · rw [hat.2]
      exact hday.2
    · exact hat'.1.trans (hday'.1.trans hat.1.symm)
    · rw [hat'.2]
      exact hday'.2
  · intro hsame
    refine h.apart.imp_of_mem fun {a b} ha hb hapart day hday hday' => hapart ⟨hday'.1, ?_⟩
    exact (hsame _ (h.mem_marks ha) _ (h.mem_marks hb) day hday hday').symm

end HabitLog

/-! ### What leaves the log alone -/

namespace Operation

variable {operation : Operation} {statement : Statement} {w : Workspace}

/-- Whether an operation may change the log of habits. -/
def TouchesLog : Operation → Prop
  | logHabit .. | deleteHabit _ | restore _ | restoreText _ => True
  | _ => False

theorem habitLogs_ne_of_issues (h : operation.Issues statement) (ht : ¬ operation.TouchesLog) :
    .habitLogs ≠ statement.table := by
  intro hlogs
  have hmem := table_of_issues h
  rw [← hlogs] at hmem
  cases operation with
  | logHabit | deleteHabit | restore | restoreText => exact ht trivial
  | _ => simp [tables] at hmem

theorem text?_habitLogs_on (ht : ¬ operation.TouchesLog) (w : Workspace) :
    (operation.on w).store.text? Table.habitLogs.name = w.store.text? Table.habitLogs.name :=
  (operation.reaches_on w).invariant
    (I := fun store => store.text? Table.habitLogs.name = w.store.text? Table.habitLogs.name)
    (fun _ _ _ _ hissues hstore hrun =>
      (text?_apply_ne hrun (habitLogs_ne_of_issues hissues ht)).trans hstore) rfl

end Operation

namespace CommandLine

variable {command : Command} {operation : Operation} {w : Workspace} {t : Terminal}

/-- Whether a command logs a habit. -/
def Command.LogsHabit : Command → Prop
  | .logHabit .. => True
  | _ => False

theorem Performs.touchesLog (h : Performs w command operation) (ht : operation.TouchesLog) :
    command.LogsHabit ∨ command.Restores := by
  cases h with
  | logHabit => exact .inl trivial
  | restore => exact .inr trivial
  | _ => exact ht.elim

/-- Commands do not change the log of habits but those that log a habit, restore or query. -/
theorem tableRows_habitLogs_run (hquery : ¬ command.IsQuery) (hrestores : ¬ command.Restores)
    (hlogs : ¬ command.LogsHabit) (t : Terminal) :
    (stateAfter (run command t)).workspace.store.tableRows .habitLogs =
      t.workspace.store.tableRows .habitLogs := by
  have hkeeps : Keeps (Terminal.Has fun w => w.store.text? Table.habitLogs.name =
      t.workspace.store.text? Table.habitLogs.name) (run command) := by
    refine keeps_performed hquery fun w operation hperforms hw => ?_
    have htouches : ¬ operation.TouchesLog := fun ht =>
      (hperforms.touchesLog ht).elim hlogs hrestores
    exact (Operation.text?_habitLogs_on htouches w).trans hw
  exact tableRows_congr (hkeeps t rfl)

/-! ### Marks -/

variable {habitId : String} {date : Option String} {entries : List HabitLog} {marks : List Mark}

/-- The text of the date that is marked: today's if none is given. -/
def dateText (date : Option String) (w : Workspace) : String := date.getD w.now.date.toText

/-- What is done once the date was read and the habit found. -/
def logFound (habitId text : String) (missed : Bool) (day : Date) : Work Unit := do
  let entry ← inDatabase (Habits.log habitId text !missed)
  let streak ← look (Habits.streak habitId day)
  let outcome := if entry.completed then "done" else "missed"
  print s!"Logged {entry.date} as {outcome} (streak: {streak})"

theorem logHabit_eq (habitId : String) (date : Option String) (missed : Bool) (t : Terminal) :
    logHabit habitId date missed t =
      match Date.ofText (dateText date t.workspace), Habits.get? habitId t.workspace.store with
      | .error e, _ => .error (.badDate (dateText date t.workspace) e) t
      | .ok _, .error e => .error (.database e) t
      | .ok _, .ok none => .error (.noHabit habitId) t
      | .ok _, .ok (some _) =>
        logFound habitId (dateText date t.workspace) missed t.workspace.now.date t := by
  unfold dateText
  cases hread : Date.ofText (date.getD t.workspace.now.date.toText) with
  | error e =>
    simp only [logHabit, bind, EStateM.bind, today, checkDate, hread]
    rfl
  | ok day =>
    cases hfound : Habits.get? habitId t.workspace.store with
    | error e =>
      simp only [logHabit, bind, EStateM.bind, pure, EStateM.pure, today, checkDate, hread, look,
        inDatabase, onWorkspace, Workspace.view, hfound]
    | ok found =>
      cases found <;>
        simp only [logHabit, bind, EStateM.bind, pure, EStateM.pure, today, checkDate, hread, look,
          inDatabase, onWorkspace, Workspace.view, hfound] <;> rfl

/-- A date that is read is marked for a habit that is found. -/
theorem logHabit_accepted (hquota : t.workspace.store.quota = none)
    (hlog : t.workspace.store.HasLog entries) {day : Date} {habit : Habit}
    (hread : Date.ofText (dateText date t.workspace) = .ok day)
    (hfound : Habits.get? habitId t.workspace.store = .ok (some habit)) (missed : Bool) :
    ∃ (l : HabitLog) (t' : Terminal), logHabit habitId date missed t = .ok () t' ∧
      l.mark = ⟨habitId, dateText date t.workspace, !missed⟩ ∧
      t'.workspace.store.HasLog (l.put entries) := by
  obtain ⟨l, w', hrun, hmark, hafter⟩ :=
    Habits.log_ok hquota hlog habitId (dateText date t.workspace) !missed
  obtain ⟨n, hn, -⟩ := Habits.streak_endsRun hafter
    (fun d => Habits.completedOn_eq habitId d (l.put entries)) t.workspace.now.date
  have haccepted : ∃ printed, logFound habitId (dateText date t.workspace) missed
      t.workspace.now.date t = .ok () { t with workspace := w', printed } := by
    simp only [logFound, bind, EStateM.bind, inDatabase, onWorkspace, hrun, look, Workspace.view,
      hn]
    exact ⟨_, rfl⟩
  obtain ⟨printed, haccepted⟩ := haccepted
  refine ⟨l, { t with workspace := w', printed }, ?_, hmark, hafter⟩
  rw [logHabit_eq, hread, hfound]
  exact haccepted

/-- Any other date or habit is refused, and nothing is changed. -/
theorem logHabit_refused (h : ∀ day habit, Date.ofText (dateText date t.workspace) = .ok day →
    Habits.get? habitId t.workspace.store ≠ .ok (some habit)) (missed : Bool) :
    ∃ e, logHabit habitId date missed t = .error e t := by
  rw [logHabit_eq]
  split
  · exact ⟨_, rfl⟩
  · exact ⟨_, rfl⟩
  · exact ⟨_, rfl⟩
  · rename_i hread hfound
    exact absurd hfound (h _ _ hread)

/-- The mark that a command makes if it logs a habit and is accepted. -/
def Command.mark? (t : Terminal) : Command → Option Mark
  | .logHabit habitId date missed => match run (.logHabit habitId date missed) t with
    | .ok .. => some ⟨habitId, dateText date t.workspace, !missed⟩
    | .error .. => none
  | _ => none

def Step.mark? (w : Workspace) : Step → Option Mark
  | .opening => none
  | .command now files noteFolder called => called.mark? ⟨{ w with now }, files, "", noteFolder⟩

/-- The marks that are made in a run, the last one at the end. -/
def marksOf : List Step → Workspace → List Mark
  | [], _ => []
  | step :: rest, w => (step.mark? w).toList ++ marksOf rest (step.on w)

/-- Whether every table of a workspace can be read, and its log shows the marks that were made. -/
structure Logged (marks : List Mark) (w : Workspace) : Prop where
  healthy : w.Healthy
  log : ∃ entries, w.store.HasLog entries ∧ HabitLog.Shows entries marks

namespace Logged

variable {taken : Step} {steps : List Step}

theorem of_tableRows {other : Workspace} (h : Logged marks w) (hother : other.Healthy)
    (hrows : other.store.tableRows .habitLogs = w.store.tableRows .habitLogs) :
    Logged marks other := by
  obtain ⟨entries, hlog, hshows⟩ := h.log
  exact ⟨hother, entries, hrows.trans hlog, hshows⟩

theorem opening (h : Logged marks w) : Logged marks (Step.on w .opening) := by
  obtain ⟨content, hw⟩ := h.healthy.exists_holds
  obtain ⟨store, hprepare, hstore⟩ := prepare_holds hw
  have hon : (Step.on w .opening).store = store := congrArg Prod.snd hprepare
  have hhealthy : (Step.on w .opening).Healthy := by
    unfold Workspace.Healthy
    rw [hon]
    exact hstore.healthy
  refine h.of_tableRows hhealthy ?_
  rw [hon, hstore.tableRows, hw.tableRows, Function.update_of_ne (by decide)]

/-- A command that logs a habit makes its mark if it is accepted, and changes nothing otherwise. -/
theorem logHabit (h : Logged marks t.workspace) (habitId : String) (date : Option String)
    (missed : Bool) : Logged (marks ++ ((Command.logHabit habitId date missed).mark? t).toList)
      (stateAfter (run (.logHabit habitId date missed) t)).workspace := by
  have hhealthy : (stateAfter (run (.logHabit habitId date missed) t)).workspace.Healthy :=
    keeps_run id t h.healthy
  obtain ⟨entries, hlog, hshows⟩ := h.log
  unfold Command.mark?
  by_cases haccepted : ∃ day habit, Date.ofText (dateText date t.workspace) = .ok day ∧
      Habits.get? habitId t.workspace.store = .ok (some habit)
  · obtain ⟨day, habit, hread, hfound⟩ := haccepted
    obtain ⟨l, t', hrun, hmark, hafter⟩ :=
      logHabit_accepted h.healthy.1 hlog hread hfound missed
    change run (.logHabit habitId date missed) t = _ at hrun
    simp only [hrun] at hhealthy ⊢
    refine ⟨hhealthy, l.put entries, hafter, ?_⟩
    rw [Option.toList_some, ← hmark]
    exact hshows.put l
  · push Not at haccepted
    obtain ⟨e, hrun⟩ := logHabit_refused haccepted missed
    change run (.logHabit habitId date missed) t = _ at hrun
    simp only [hrun] at hhealthy ⊢
    rw [Option.toList_none, List.append_nil]
    exact ⟨hhealthy, entries, hlog, hshows⟩

theorem of_command {called : Command} (h : Logged marks t.workspace) (hquery : ¬ called.IsQuery)
    (hrestores : ¬ called.Restores) :
    Logged (marks ++ (called.mark? t).toList) (stateAfter (run called t)).workspace := by
  by_cases hlogs : called.LogsHabit
  · cases called with
    | logHabit habitId date missed => exact h.logHabit habitId date missed
    | _ => exact hlogs.elim
  · have hnone : called.mark? t = none := by
      cases called with
      | logHabit => exact absurd trivial hlogs
      | _ => rfl
    rw [hnone, Option.toList_none, List.append_nil]
    exact h.of_tableRows (keeps_run hquery t h.healthy)
      (tableRows_habitLogs_run hquery hrestores hlogs t)

theorem step (h : Logged marks w) (htame : (Access.step taken).Tame) :
    Logged (marks ++ (taken.mark? w).toList) (taken.on w) := by
  cases taken with
  | opening =>
    rw [Step.mark?, Option.toList_none, List.append_nil]
    exact h.opening
  | command now files noteFolder called =>
    have hstart : Logged marks (⟨{ w with now }, files, "", noteFolder⟩ : Terminal).workspace :=
      ⟨h.healthy, h.log⟩
    exact hstart.of_command htame.1 htame.2

theorem after (h : Logged marks w) (htame : ∀ step ∈ steps, (Access.step step).Tame) :
    Logged (marks ++ marksOf steps w) (after steps w) := by
  induction steps generalizing marks w with
  | nil =>
    rw [marksOf, List.append_nil]
    exact h
  | cons first rest ih =>
    obtain ⟨hfirst, hrest⟩ := List.forall_mem_cons.mp htame
    rw [marksOf, ← List.append_assoc]
    exact ih (h.step hfirst) hrest

end Logged

/-- What is found of marks in the log of habits. There is one entry at most for each habit and day
just if no habit was marked for one day in different ways. The entry that is found for a text is the
last mark with that text. So the last mark for a day is the one that is found for the day as it is
printed just if it has that text, and only marks with such texts count for the streak. -/
structure Recalls (marks : List Mark) (store : Store) : Prop where
  once : ∃ rows, store.tableRows .habitLogs = .ok rows ∧
    ((rows.Pairwise fun a b => ¬ SameHabitDay a b) ↔
      ∀ m ∈ marks, ∀ m' ∈ marks, ∀ day,
        m.On m.habitId day → m'.On m.habitId day → m.date = m'.date)
  found : ∀ habitId text, ∃ l?, Habits.getLog? habitId text store = .ok l? ∧
    l?.map HabitLog.mark = Mark.lastAt habitId text marks
  foundOn : ∀ habitId day m, Mark.lastOn habitId day marks = some m →
    ((∃ l, Habits.getLog? habitId day.toText store = .ok (some l) ∧ l.mark = m) ↔
      m.date = day.toText)
  streak : ∀ habitId day, ∃ n, Habits.streak habitId day store = .ok n ∧
    day.EndsRun (fun d => ∃ m, Mark.lastAt habitId d.toText marks = some m ∧ m.completed = true) n

theorem Logged.recalls (h : Logged marks w) : Recalls marks w.store := by
  obtain ⟨-, entries, hlog, hshows⟩ := h
  refine ⟨⟨_, hlog, hshows.pairwise_iff⟩, fun habitId text => ?_, fun habitId day m hlast => ?_,
    fun habitId day => ?_⟩
  · exact ⟨_, Habits.getLog?_eq hlog habitId text, hshows.last habitId text⟩
  · rw [← Mark.lastAt_eq_iff hlast, Habits.getLog?_eq hlog, ← hshows.last, Option.map_eq_some_iff]
    simp only [Except.ok.injEq]
  · obtain ⟨n, hn, hrun⟩ := Habits.streak_endsRun hlog
      (fun d => Habits.completedOn_eq habitId d entries) day
    have hkept : ∀ d : Date, (entries.find? (·.mark.At habitId d.toText)).any (·.completed) = true ↔
        ∃ m, Mark.lastAt habitId d.toText marks = some m ∧ m.completed = true := by
      intro d
      rw [← hshows.last]
      cases entries.find? (·.mark.At habitId d.toText) <;> simp [HabitLog.mark]
    simp only [hkept] at hrun
    exact ⟨n, hn, hrun⟩

/-- The marks of a run of commands from a planner with an empty log, of which none restores a document
and none queries, are recalled then. -/
theorem habitDays_after {steps : List Step} (hw : w.Healthy)
    (hempty : w.store.tableRows .habitLogs = .ok [])
    (htame : ∀ step ∈ steps, (Access.step step).Tame) :
    Recalls (marksOf steps w) (after steps w).store := by
  have hstart : Logged [] w := ⟨hw, [], hempty, .nil, fun _ _ => rfl⟩
  exact (hstart.after htame).recalls

/-- A habit is added, and logged for one day in two ways of writing it: as kept, then as missed. -/
def spellings : List Step := [
  .command ⟨1715763600000⟩ [] "" (.addHabit "Read" none),
  .command ⟨1715763600000⟩ [] "" (.logHabit (idOfNumber 1) (some "2024-05-15") false),
  .command ⟨1715763600000⟩ [] "" (.logHabit (idOfNumber 1) (some "2024-5-15") true)]

theorem tame_spellings : ∀ step ∈ spellings, (Access.step step).Tame := by
  simp [spellings, Access.Tame, Command.IsQuery, Command.Restores]

theorem marksOf_spellings : marksOf spellings (fresh ⟨0⟩) =
    [⟨idOfNumber 1, "2024-05-15", true⟩, ⟨idOfNumber 1, "2024-5-15", false⟩] := by decide +kernel

theorem emptyLog_fresh (now : Instant) : (fresh now).store.tableRows .habitLogs = .ok [] :=
  (holdsPlain_fresh now).holds.tableRows .habitLogs

theorem on_midMay : Mark.On (idOfNumber 1) midMay ⟨idOfNumber 1, "2024-05-15", true⟩ ∧
    Mark.On (idOfNumber 1) midMay ⟨idOfNumber 1, "2024-5-15", false⟩ := by decide +kernel

theorem endsRun_midMay {kept : Date → Prop} (h : kept midMay)
    (hbefore : ¬ kept ⟨2024, 5, 14, by decide⟩) : midMay.EndsRun kept 1 :=
  .succ h (by decide +kernel) (.none hbefore)

theorem habitDays_after_spellings : ∃ l,
    Habits.getLog? (idOfNumber 1) midMay.toText (after (spellings.take 2) (fresh ⟨0⟩)).store =
      .ok (some l) ∧ l.completed = true ∧
    Habits.streak (idOfNumber 1) midMay (after (spellings.take 2) (fresh ⟨0⟩)).store = .ok 1 := by
  have hmarks : marksOf (spellings.take 2) (fresh ⟨0⟩) =
      [⟨idOfNumber 1, "2024-05-15", true⟩] := by decide +kernel
  have htame : ∀ step ∈ spellings.take 2, (Access.step step).Tame :=
    fun step hstep => tame_spellings step (List.mem_of_mem_take hstep)
  have hrecalls := habitDays_after (healthy_fresh ⟨0⟩) (emptyLog_fresh ⟨0⟩) htame
  rw [hmarks] at hrecalls
  obtain ⟨l, hl, hmark⟩ := (hrecalls.foundOn (idOfNumber 1) midMay
    ⟨idOfNumber 1, "2024-05-15", true⟩ (by decide +kernel)).mpr (by decide +kernel)
  obtain ⟨n, hn, hrun⟩ := hrecalls.streak (idOfNumber 1) midMay
  have hone : n = 1 := by
    refine hrun.unique (endsRun_midMay ?_ ?_)
    · exact ⟨⟨idOfNumber 1, "2024-05-15", true⟩, by decide +kernel, rfl⟩
    · have hbefore : Mark.lastAt (idOfNumber 1) (⟨2024, 5, 14, by decide⟩ : Date).toText
          [⟨idOfNumber 1, "2024-05-15", true⟩] = none := by decide +kernel
      rw [hbefore]
      exact fun ⟨_, hm, _⟩ => nomatch hm
  exact ⟨l, hl, congrArg Mark.completed hmark, hn.trans (congrArg Except.ok hone)⟩

/-- The day has two entries then, and though the last mark is that the habit was missed, the entry
that is found is the other one, and the streak counts the day. -/
theorem not_one_entry_spellings :
    (∃ rows, (after spellings (fresh ⟨0⟩)).store.tableRows .habitLogs = .ok rows ∧
      ¬ rows.Pairwise fun a b => ¬ SameHabitDay a b) ∧
    Mark.lastOn (idOfNumber 1) midMay (marksOf spellings (fresh ⟨0⟩)) =
      some ⟨idOfNumber 1, "2024-5-15", false⟩ ∧
    (∃ l, Habits.getLog? (idOfNumber 1) midMay.toText (after spellings (fresh ⟨0⟩)).store =
      .ok (some l) ∧ l.mark = ⟨idOfNumber 1, "2024-05-15", true⟩) ∧
    Habits.streak (idOfNumber 1) midMay (after spellings (fresh ⟨0⟩)).store = .ok 1 := by
  have hstart : Logged [] (fresh ⟨0⟩) :=
    ⟨healthy_fresh ⟨0⟩, [], emptyLog_fresh ⟨0⟩, .nil, fun _ _ => rfl⟩
  have hrecalls := (hstart.after tame_spellings).recalls
  rw [List.nil_append, marksOf_spellings] at hrecalls
  have hlast : Mark.lastAt (idOfNumber 1) midMay.toText
      [⟨idOfNumber 1, "2024-05-15", true⟩, ⟨idOfNumber 1, "2024-5-15", false⟩] =
        some ⟨idOfNumber 1, "2024-05-15", true⟩ := by decide +kernel
  have hnone : Mark.lastAt (idOfNumber 1) (⟨2024, 5, 14, by decide⟩ : Date).toText
      [⟨idOfNumber 1, "2024-05-15", true⟩, ⟨idOfNumber 1, "2024-5-15", false⟩] = none := by
    decide +kernel
  obtain ⟨rows, hrows, hapart_iff⟩ := hrecalls.once
  obtain ⟨l?, hfound, hmark⟩ := hrecalls.found (idOfNumber 1) midMay.toText
  obtain ⟨l, rfl, hl⟩ := Option.map_eq_some_iff.mp (hmark.trans hlast)
  obtain ⟨n, hn, hrun⟩ := hrecalls.streak (idOfNumber 1) midMay
  have hone : n = 1 := by
    refine hrun.unique (endsRun_midMay ⟨_, hlast, rfl⟩ ?_)
    rw [hnone]
    exact fun ⟨_, hm, _⟩ => nomatch hm
  rw [marksOf_spellings]
  refine ⟨⟨rows, hrows, fun hapart => ?_⟩, by decide +kernel, ⟨l, hfound, hl⟩,
    hn.trans (congrArg Except.ok hone)⟩
  have hsame := hapart_iff.mp hapart _ (List.mem_cons_self ..) _
    (List.mem_cons_of_mem _ (List.mem_cons_self ..)) midMay on_midMay.1 on_midMay.2
  exact absurd hsame (by decide)

end CommandLine
end Planner

import Planner.Proofs.Store.Placing
import Planner.Proofs.Store.Reaches

/-! Rows that agree on the natural key after a document was restored: the settings have none, and the
other tables have as many as the document. -/
namespace Planner

namespace Store

open Json Outcome

variable {store store' : Store} {table : Table} {rows rows' : List Record} {row a b c d : Record}
  {statement : Statement} {count : Nat}

/-! ### Hosts that take every write -/

/-- The same texts on a host that takes every write. -/
def unlimited (store : Store) : Store := { store with quota := none }

theorem tableRows_unlimited : store.unlimited.tableRows table = store.tableRows table := rfl

theorem setTableRows_unlimited (hset : store.setTableRows table rows = .ok store') :
    store.unlimited.setTableRows table rows = .ok store'.unlimited := by
  have htexts : store'.texts = putText table.name (textOfRows rows) store.texts :=
    put_texts (mapError_eq_ok.mp hset)
  rw [setTableRows_healthy rfl]
  simp only [unlimited, written, htexts]

/-- What a host took is taken by one that takes every write. -/
theorem apply_unlimited (hrun : store.apply statement = .ok (count, store')) :
    store.unlimited.apply statement = .ok (count, store'.unlimited) := by
  obtain ⟨rows, written, hrows, heffect, hset⟩ := apply_cases hrun
  rw [apply_of_effect (tableRows_unlimited.trans hrows) heffect]
  cases written with
  | none =>
    subst hset
    rfl
  | some written =>
    dsimp only at hset ⊢
    rw [setTableRows_unlimited hset]
    rfl

theorem applyFrom_unlimited {statements : List Statement} {index touched : Nat}
    (hrun : store.applyFrom index touched statements = (.ok count, store')) :
    store.unlimited.applyFrom index touched statements = (.ok count, store'.unlimited) := by
  induction statements generalizing store index touched with
  | nil =>
    cases hrun
    rfl
  | cons statement rest ih =>
    unfold applyFrom at hrun ⊢
    cases happly : store.apply statement with
    | error e =>
      rw [happly] at hrun
      cases hrun
    | ok result =>
      rw [happly] at hrun
      rw [apply_unlimited happly]
      exact ih hrun

/-! ### Rows that agree -/

theorem agree_congr (hab : KeepsKey table a b) (hcd : KeepsKey table c d) :
    Agree table a c ↔ Agree table b d := by
  refine forall₂_congr fun column hc => ?_
  rw [hab column hc, hcd column hc]

/-- Rows that keep their keys agree as they did. -/
theorem noneAgree_congr (h : List.Forall₂ (KeepsKey table) rows rows') :
    NoneAgree table rows ↔ NoneAgree table rows' := by
  obtain ⟨hlength, hkeeps⟩ := List.forall₂_iff_get.mp h
  simp only [NoneAgree, List.pairwise_iff_getElem]
  constructor
  · intro hne i j hi hj hij hagree
    have hi' := hi.trans_eq hlength.symm
    have hj' := hj.trans_eq hlength.symm
    exact hne i j hi' hj' hij ((agree_congr (hkeeps i hi' hi) (hkeeps j hj' hj)).mpr hagree)
  · intro hne i j hi hj hij hagree
    have hi' := hi.trans_eq hlength
    have hj' := hj.trans_eq hlength
    exact hne i j hi' hj' hij ((agree_congr (hkeeps i hi hi') (hkeeps j hj hj')).mp hagree)

theorem SteadyKey.reread (h : SteadyKey table row) : SteadyKey table (rereadFields row) :=
  (keepsKey_reread h).steady h

/-- However often a row is read anew, it keeps a key that is read back as itself. -/
theorem keepsKey_iterate (h : SteadyKey table row) (n : Nat) :
    KeepsKey table row (rereadFields^[n] row) := by
  induction n generalizing row with
  | zero => exact fun _ _ => rfl
  | succ n ih =>
    intro column hc
    rw [Function.iterate_succ_apply, ih h.reread column hc, keepsKey_reread h column hc]

end Store

namespace Transfer

open Json Store Outcome

variable {table : Table} {rows stored : List Record} {w w' : Workspace} {text : String}
  {count : Nat}

/-- Rows of a data table that are read anew so often agree as they did. -/
theorem noneAgree_rereads (h : ∀ row ∈ rows, SteadyKey table row) (times : Nat → Nat) :
    NoneAgree table (rows.mapIdx fun index row => rereadFields^[times index] row) ↔
      NoneAgree table rows := by
  refine (noneAgree_congr (List.forall₂_iff_get.mpr ⟨by simp, fun i hi _ => ?_⟩)).symm
  simp only [List.get_eq_getElem, List.getElem_mapIdx]
  exact keepsKey_iterate (h _ (List.getElem_mem hi)) _

/-- Settings that are put one by one never come to agree. -/
theorem noneAgree_settings (hstored : NoneAgree .settings stored)
    (hkey : ∀ row ∈ rows, HasKey .settings row)
    (hsteady : ∀ row ∈ stored ++ rows, SteadyKey .settings row) :
    NoneAgree .settings (refill .settings stored rows) := by
  induction rows generalizing stored with
  | nil => exact hstored
  | cons row rest ih =>
    obtain ⟨hrow, hrest⟩ := List.forall_mem_cons.mp hkey
    have hput : ∀ old ∈ restoreRow .settings stored row, SteadyKey .settings old := by
      intro old hold
      rcases mem_of_mem_restoreRow hold with rfl | hold
      · exact hsteady old (List.mem_append_right _ (List.mem_cons_self ..))
      · exact hsteady old (List.mem_append_left _ hold)
    have hnext : NoneAgree .settings ((restoreRow .settings stored row).map rereadFields) := by
      refine (noneAgree_congr (List.forall₂_map_right_iff.mpr ?_)).mp (hstored.upsertRow hrow)
      exact List.forall₂_same.mpr fun old hold => keepsKey_reread (hput old hold)
    refine ih hnext hrest (List.forall_mem_append.mpr ⟨List.forall_mem_map.mpr ?_, ?_⟩)
    · exact fun old hold => (hput old hold).reread
    · exact fun other hother =>
        hsteady other (List.mem_append_right _ (List.mem_cons_of_mem _ hother))

/-- A workspace on a host that takes every write. -/
def unlimited (w : Workspace) : Workspace := { w with store := w.store.unlimited }

theorem restoreText_unlimited (hrun : restoreText text w = .ok count w') :
    restoreText text (unlimited w) = .ok count (unlimited w') := by
  unfold restoreText at hrun ⊢
  cases hdocument : documentOfText text with
  | error fault =>
    rw [hdocument] at hrun
    cases hrun
  | ok document =>
    rw [hdocument] at hrun
    dsimp only at hrun ⊢
    unfold restore at hrun ⊢
    cases hinsertions : refillings document.data Table.all with
    | error e =>
      rw [hinsertions] at hrun
      cases hrun
    | ok insertions =>
      rw [hinsertions] at hrun
      dsimp only at hrun ⊢
      cases hbatch : w.store.applyBatch (clearings ++ insertions) with
      | mk result store =>
        rw [hbatch] at hrun
        cases result with
        | error e => cases hrun
        | ok touched =>
          cases hrun
          have hfree : (unlimited w).store.applyBatch (clearings ++ insertions) =
            (.ok touched, store.unlimited) := applyFrom_unlimited hbatch
          rw [hfree]
          rfl

theorem keyed_of_restoreText {document : Document}
    (hdocument : documentOfText text = .ok document) (hrun : restoreText text w = .ok count w') :
    Keyed document.data := by
  by_contra hkeyed
  obtain ⟨table, index, column, herror⟩ := restore_eq_error document hkeyed w
  unfold restoreText at hrun
  rw [hdocument] at hrun
  cases herror.symm.trans hrun

/-- When a text was restored, the rows of a data table are those of its document, read anew once for
each of them and each behind it, so that they agree on the natural key exactly where those do; no two
settings agree. Both hold where the keys are read back as themselves. -/
theorem noneAgree_restoreText (hreadable : w.store.Readable)
    (hstored : ∀ table rows, w.store.tableRows table = .ok rows → NoneAgree table rows)
    (hrun : restoreText text w = .ok count w') :
    ∃ document, documentOfText text = .ok document ∧ w'.store.Readable ∧
      (∀ table rows, w'.store.tableRows table = .ok rows → table ≠ .settings →
        rows = ((rowsOf document.data table).mapIdx fun index row =>
          rereadFields^[(rowsOf document.data table).length - index] row) ∧
        ((∀ row ∈ rowsOf document.data table, SteadyKey table row) →
          (NoneAgree table rows ↔ NoneAgree table (rowsOf document.data table)))) ∧
      ∀ stored rows, w.store.tableRows .settings = .ok stored →
        w'.store.tableRows .settings = .ok rows →
          (∀ row ∈ stored ++ rowsOf document.data .settings, SteadyKey .settings row) →
            NoneAgree .settings rows := by
  obtain ⟨content, hcontent⟩ : ∃ content, (unlimited w).store.Holds content :=
    Healthy.exists_holds ⟨rfl, hreadable⟩
  have hfree := restoreText_unlimited hrun
  rcases restoreText_healthy hcontent text with ⟨e, herror, -⟩ |
    ⟨document, store', hdocument, hok, hholds, -, -⟩
  · cases herror.symm.trans hfree
  · obtain ⟨-, hstore⟩ := EStateM.Result.ok.inj (hok.symm.trans hfree)
    have hkeyed := keyed_of_restoreText hdocument hrun
    have hafter : w'.store.unlimited = store' := (congrArg Workspace.store hstore).symm
    rw [← hafter] at hholds
    refine ⟨document, hdocument, hholds.healthy.2, fun table rows hrows hdata => ?_,
      fun stored rows hold hrows hsteady => ?_⟩
    · cases (hholds.tableRows table).symm.trans hrows
      have hrows : restored document.data content table = (rowsOf document.data table).mapIdx
          fun index row => rereadFields^[(rowsOf document.data table).length - index] row := by
        simp only [restored, if_neg hdata, refill_data hdata, List.map_nil, List.nil_append]
      rw [hrows]
      exact ⟨rfl, fun hsteady => noneAgree_rereads hsteady _⟩
    · cases (hholds.tableRows .settings).symm.trans hrows
      cases (hcontent.tableRows .settings).symm.trans hold
      exact noneAgree_settings (hstored .settings _ hold) (hkeyed .settings) hsteady

/-- The log that is stored when a text was restored into a planner with nothing stored. -/
def restoredLog (text : String) : Option (List Record) :=
  match restoreText text blank with
  | .ok _ w => (w.store.tableRows .habitLogs).toOption
  | .error .. => none

theorem exists_of_restoredLog {p : List Record → Bool} (h : (restoredLog text).any p = true) :
    ∃ count w rows, restoreText text blank = .ok count w ∧
      w.store.tableRows .habitLogs = .ok rows ∧ p rows = true := by
  unfold restoredLog at h
  cases hrun : restoreText text blank with
  | error e w =>
    rw [hrun] at h
    cases h
  | ok count w =>
    rw [hrun] at h
    obtain ⟨rows, hrows, hp⟩ := exists_of_any h
    exact ⟨count, w, rows, rfl, hrows, hp⟩

theorem noneAgree_blank (table : Table) (rows : List Record)
    (hrows : blank.store.tableRows table = .ok rows) : NoneAgree table rows := by
  cases (holds_empty.tableRows table).symm.trans hrows
  exact List.Pairwise.nil

/-- A document with the entries of a habit for two days. -/
def twoDaysText : String :=
  "\x7b\"data\":\x7b\"habitLogs\":[\x7b\"id\":\"1\",\"habit_id\":\"h\",\"date\":\"2024-05-01\"\x7d,\x7b\"id\":\"2\",\"habit_id\":\"h\",\"date\":\"2024-05-02\"\x7d]\x7d\x7d"

theorem noneAgree_twoDays : ∃ count w rows, restoreText twoDaysText blank = .ok count w ∧
    w.store.tableRows .habitLogs = .ok rows ∧ rows.length = 2 ∧ NoneAgree .habitLogs rows := by
  have hrestored : (restoredLog twoDaysText).any (fun rows => decide (rows.length = 2)) = true := by
    decide +kernel
  obtain ⟨count, w, rows, hrun, hrows, hlength⟩ := exists_of_restoredLog hrestored
  obtain ⟨document, hdocument, -, hdata, -⟩ :=
    noneAgree_restoreText holds_empty.healthy.2 noneAgree_blank hrun
  obtain ⟨given, hgiven, hkeys⟩ : ∃ given, documentOfText twoDaysText = .ok given ∧
      decide ((∀ row ∈ rowsOf given.data .habitLogs, SteadyKey .habitLogs row) ∧
        NoneAgree .habitLogs (rowsOf given.data .habitLogs)) = true :=
    exists_of_any (by decide +kernel)
  cases hdocument.symm.trans hgiven
  obtain ⟨hsteady, hapart⟩ := of_decide_eq_true hkeys
  exact ⟨count, w, rows, hrun, hrows, of_decide_eq_true hlength,
    ((hdata .habitLogs rows hrows (by decide)).2 hsteady).mpr hapart⟩

/-- A document with two entries of a habit for one day. -/
def oneDayText : String :=
  "\x7b\"data\":\x7b\"habitLogs\":[\x7b\"id\":\"1\",\"habit_id\":\"h\",\"date\":\"2024-05-01\"\x7d,\x7b\"id\":\"2\",\"habit_id\":\"h\",\"date\":\"2024-05-01\"\x7d]\x7d\x7d"

/-- Both entries are stored: the restored log has two of a habit for one day. -/
theorem not_noneAgree_oneDay : blank.store.Readable ∧
    (∀ table rows, blank.store.tableRows table = .ok rows → NoneAgree table rows) ∧
    ∃ count w rows, restoreText oneDayText blank = .ok count w ∧
      w.store.tableRows .habitLogs = .ok rows ∧ ¬ NoneAgree .habitLogs rows := by
  have hrestored : (restoredLog oneDayText).any (fun rows => decide (¬ NoneAgree .habitLogs rows)) =
      true := by decide +kernel
  obtain ⟨count, w, rows, hrun, hrows, hagree⟩ := exists_of_restoredLog hrestored
  exact ⟨holds_empty.healthy.2, noneAgree_blank, count, w, rows, hrun, hrows,
    of_decide_eq_true hagree⟩

end Transfer
end Planner

import Planner.Proofs.Json.Soundness
import Planner.Transfer.Reader

/-! What the rows of every document that is read satisfy. -/
namespace Planner.Transfer

open Json Outcome

variable {σ : Type} {given : List (Table × Option (List Record))}

theorem readPositions_makes {I : σ → Prop} {reads : List (σ → Reader σ)}
    (hreads : ∀ read ∈ reads, ∀ state, I state → Makes (read state) I) (index : Nat) :
    ∀ state, I state → Makes (readPositions index state reads) (fun result => I result.1) := by
  induction reads generalizing index with
  | nil =>
    intro state hi s result rest h
    obtain ⟨s, -, h⟩ := bind_eq_ok.mp h
    cases h
    exact hi
  | cons read reads ih =>
    intro state hi s result rest h
    obtain ⟨hread, hrest⟩ := List.forall_mem_cons.mp hreads
    obtain ⟨next, -, h⟩ := bind_eq_ok.mp h
    cases next with
    | done rest =>
      cases h
      exact hi
    | item s =>
      obtain ⟨⟨state', s⟩, hstate, h⟩ := bind_eq_ok.mp h
      exact ih hrest (index + 1) state' (hread state hi _ _ _ hstate) _ _ _ h

theorem readMismatch_makes {α : Type} (wanted : String) (P : α → Prop) :
    Makes (readMismatch wanted) P := by
  intro s a rest h
  unfold readMismatch at h
  split at h <;> cases h

theorem once_makes {α : Type} {I : σ → Prop} {name : String} {old : Option α} {read : Reader α}
    {put : α → σ} {P : α → Prop} (hread : Makes read P) (hput : ∀ a, P a → I (put a)) :
    Makes (once name old read put) I := by
  intro s state rest h
  unfold once at h
  split_ifs at h
  obtain ⟨s, -, h⟩ := bind_eq_ok.mp h
  obtain ⟨⟨a, s⟩, ha, h⟩ := bind_eq_ok.mp h
  cases h
  exact hput a (hread _ _ _ ha)

theorem passOver_makes {I : σ → Prop} {state : σ} (h : I state) : Makes (passOver state) I := by
  intro s result rest hread
  obtain ⟨s, -, hread⟩ := bind_eq_ok.mp hread
  obtain ⟨s, -, hread⟩ := bind_eq_ok.mp hread
  cases hread
  exact h

/-- Rows of a section that were read, if there are any. -/
def RowsFit (rows : Option (List Record)) : Prop :=
  ∀ row ∈ rows.getD [], RecordFits fieldDepth row

/-- Sections that were read, of which each is given once at most in a document. -/
def SectionsFit (given : List (Table × Option (List Record))) : Prop :=
  ∀ entry ∈ given, RowsFit entry.2

theorem readRow_makes : Makes readRow (RecordFits fieldDepth) := by
  intro s row rest h
  unfold readRow at h
  split at h
  · exact readRecord_makes (readValue_makes _) _ _ _ h
  · exact readMismatch_makes _ _ _ _ _ h

theorem readRows_makes : Makes readRows RowsFit := by
  intro s rows rest h
  unfold readRows at h
  split at h
  · obtain ⟨s, -, h⟩ := bind_eq_ok.mp h
    cases h
    simp [RowsFit]
  · obtain ⟨⟨rows, s⟩, hrows, h⟩ := bind_eq_ok.mp h
    cases h
    exact readListOf_makes readRow_makes _ _ _ hrows

theorem sectionsFit_append {table : Table} {rows : Option (List Record)} (h : SectionsFit given)
    (hrows : RowsFit rows) : SectionsFit (given ++ [(table, rows)]) := by
  intro entry he
  rcases List.mem_append.mp he with he | he
  · exact h entry he
  · rw [List.mem_singleton.mp he]
    exact hrows

theorem sectionField_makes (key : String) (h : SectionsFit given) :
    Makes (sectionField given key) SectionsFit := by
  unfold sectionField
  split
  · exact once_makes readRows_makes fun rows hrows => sectionsFit_append h hrows
  · exact passOver_makes h

theorem readSections_makes : Makes readSections (fun data => SectionsFit data.given) := by
  intro s data rest h
  unfold readSections at h
  split at h
  · obtain ⟨⟨given, s⟩, hgiven, h⟩ := bind_eq_ok.mp h
    cases h
    exact readFields_makes (fun given key hg => sectionField_makes key hg) (by simp [SectionsFit])
      _ _ _ hgiven
  · obtain ⟨⟨⟨given, count⟩, s⟩, hgiven, h⟩ := bind_eq_ok.mp h
    cases h
    refine readPositions_makes (I := SectionsFit) ?_ 0 [] (by simp [SectionsFit]) _ _ _ hgiven
    refine List.forall_mem_map.mpr fun table _ given hg s result rest hread => ?_
    obtain ⟨⟨rows, s⟩, hrows, hread⟩ := bind_eq_ok.mp hread
    cases hread
    exact sectionsFit_append hg (readRows_makes _ _ _ hrows)
  · exact readMismatch_makes _ (fun data : Sections => SectionsFit data.given) _ _ _ h

/-- The sections of a draft are read sections, if it has any. -/
def DraftFits (draft : Draft) : Prop := ∀ data ∈ draft.data, SectionsFit data.given

theorem field_makes {draft : Draft} (key : String) (h : DraftFits draft) :
    Makes (draft.field key) DraftFits := by
  have hany : ∀ {α : Type} (read : Reader α), Makes read fun _ => True :=
    fun _ _ _ _ _ => trivial
  unfold Draft.field
  split_ifs
  · exact once_makes (hany _) fun _ _ => h
  · exact once_makes (hany _) fun _ _ => h
  · refine once_makes readSections_makes fun data hdata => ?_
    rintro _ ⟨⟩
    exact hdata
  · exact passOver_makes h

theorem positions_makes : ∀ read ∈ Draft.positions, ∀ draft, DraftFits draft →
    Makes (read draft) DraftFits := by
  intro read hread draft h s result rest hr
  simp only [Draft.positions, List.mem_cons, List.not_mem_nil, or_false] at hread
  rcases hread with rfl | rfl | rfl
  all_goals
    obtain ⟨⟨value, s⟩, hv, hr⟩ := bind_eq_ok.mp hr
    cases hr
  · exact h
  · exact h
  · rintro _ ⟨⟩
    exact readSections_makes _ _ _ hv

theorem finish_eq_ok {draft : Draft} {missing : Fault} {document : Document}
    (h : DraftFits draft) (hf : draft.finish missing = .ok document) :
    SectionsFit document.data.given := by
  unfold Draft.finish at hf
  split at hf
  · rename_i data hdata
    cases hf
    exact h data hdata
  · cases hf

theorem readDocument_makes : Makes readDocument (fun d => SectionsFit d.data.given) := by
  have hempty : DraftFits Draft.empty := by simp [DraftFits, Draft.empty]
  intro s document rest h
  unfold readDocument at h
  split at h
  · obtain ⟨⟨draft, s⟩, hdraft, h⟩ := bind_eq_ok.mp h
    obtain ⟨document, hfinish, h⟩ := bind_eq_ok.mp h
    cases h
    exact finish_eq_ok (readFields_makes (fun draft key hd => field_makes key hd) hempty _ _ _
      hdraft) hfinish
  · obtain ⟨⟨⟨draft, count⟩, s⟩, hdraft, h⟩ := bind_eq_ok.mp h
    obtain ⟨document, hfinish, h⟩ := bind_eq_ok.mp h
    cases h
    exact finish_eq_ok (readPositions_makes positions_makes 0 _ hempty _ _ _ hdraft) hfinish
  · exact readMismatch_makes _ (fun d : Document => SectionsFit d.data.given) _ _ _ h

/-- Every row of a document that is read is in order and not too deep to be read again. -/
theorem recordFits_of_documentOfText {text : String} {document : Document}
    (h : documentOfText text = .ok document) (table : Table) :
    ∀ row ∈ (document.data.rows? table).getD [], RecordFits fieldDepth row := by
  obtain ⟨rest, h⟩ := ofWhole_eq_ok h
  have hfits := readDocument_makes _ _ _ h
  unfold Sections.rows?
  cases hlookup : document.data.given.lookup table with
  | none => simp
  | some rows =>
    have hmem : (table, rows) ∈ document.data.given := by
      obtain ⟨before, after, heq, -⟩ := List.lookup_eq_some_iff.mp hlookup
      rw [heq]
      exact List.mem_append_right _ (List.mem_cons_self ..)
    exact hfits _ hmem

end Planner.Transfer

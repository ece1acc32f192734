import Planner.Proofs.Json.Reread
import Planner.Proofs.Outcome
import Planner.Json.Reader.Value

/-! What every value that is read satisfies: its objects are in order, and it is not too deep. -/
namespace Planner.Json

open Outcome

variable {α σ : Type} {s rest : List Char} {levels : Nat}

/-- Whatever the reader makes of a text has the property. -/
def Makes (reader : Reader α) (P : α → Prop) : Prop :=
  ∀ s a rest, reader s = .ok (a, rest) → P a

theorem readItemsLoop_makes {item : Reader α} {P : α → Prop} (hitem : Makes item P) (steps : Nat)
    (first : Bool) : Makes (readItemsLoop item steps first) (fun xs => ∀ x ∈ xs, P x) := by
  induction steps generalizing first with
  | zero =>
    intro s xs rest h
    cases h
  | succ steps ih =>
    intro s xs rest h
    obtain ⟨next, -, h⟩ := bind_eq_ok.mp h
    cases next with
    | done rest =>
      cases h
      simp
    | item s =>
      obtain ⟨⟨x, s⟩, hx, h⟩ := bind_eq_ok.mp h
      obtain ⟨⟨xs, s⟩, hxs, h⟩ := bind_eq_ok.mp h
      cases h
      exact List.forall_mem_cons.mpr ⟨hitem _ _ _ hx, ih false _ _ _ hxs⟩

theorem readItems_makes {item : Reader α} {P : α → Prop} (hitem : Makes item P) :
    Makes (readItems item) (fun xs => ∀ x ∈ xs, P x) :=
  fun s => readItemsLoop_makes hitem _ _ s

theorem readFieldsLoop_makes {field : σ → String → Reader σ} {I : σ → Prop}
    (hfield : ∀ state key, I state → Makes (field state key) I) (steps : Nat) (first : Bool) :
    ∀ state, I state → Makes (readFieldsLoop field steps first state) I := by
  induction steps generalizing first with
  | zero =>
    intro state hi s result rest h
    cases h
  | succ steps ih =>
    intro state hi s result rest h
    obtain ⟨next, -, h⟩ := bind_eq_ok.mp h
    cases next with
    | done rest =>
      cases h
      exact hi
    | item s =>
      obtain ⟨⟨key, s⟩, -, h⟩ := bind_eq_ok.mp h
      obtain ⟨⟨state', s⟩, hstate, h⟩ := bind_eq_ok.mp h
      exact ih false state' (hfield state key hi _ _ _ hstate) _ _ _ h

theorem readFields_makes {field : σ → String → Reader σ} {I : σ → Prop} {start : σ}
    (hfield : ∀ state key, I state → Makes (field state key) I) (hstart : I start) :
    Makes (readFields field start) I :=
  fun s => readFieldsLoop_makes hfield _ _ start hstart s

/-- What a value is that was read with the given number of levels. -/
def Fits (levels : Nat) (value : Json) : Prop := value.Sorted ∧ value.depth ≤ levels

/-- What a record is whose values were read with the given number of levels. -/
structure RecordFits (levels : Nat) (record : Record) : Prop where
  ordered : Record.Ordered record
  fields : ∀ field ∈ record, Fits levels field.2

theorem fits_text (levels : Nat) (s : String) : Fits levels (.text s) := ⟨trivial, Nat.zero_le _⟩

theorem readRecord_makes {value : Reader Json} (h : Makes value (Fits levels)) :
    Makes (readRecord value) (RecordFits levels) := by
  refine readFields_makes (fun record key hrecord s result rest hread => ?_)
    ⟨List.Pairwise.nil, by simp⟩
  obtain ⟨s, -, hread⟩ := bind_eq_ok.mp hread
  obtain ⟨⟨v, s⟩, hv, hread⟩ := bind_eq_ok.mp hread
  cases hread
  refine ⟨Record.ordered_set hrecord.ordered _ _, fun field hf => ?_⟩
  rcases Record.mem_set hf with rfl | hf
  · exact h _ _ _ hv
  · exact hrecord.fields field hf

theorem fits_object_iff {record : Record} :
    Fits (levels + 1) (.object record) ↔ RecordFits levels record := by
  constructor
  · rintro ⟨⟨hordered, hsorted⟩, hdepth⟩
    have hdepth := depthFields_le_iff.mp (Nat.le_of_succ_le_succ hdepth)
    exact ⟨hordered, fun field hf => ⟨sortedFields_iff.mp hsorted field hf, hdepth field hf⟩⟩
  · intro h
    refine ⟨⟨h.ordered, sortedFields_iff.mpr fun field hf => (h.fields field hf).1⟩, ?_⟩
    exact Nat.succ_le_succ (depthFields_le_iff.mpr fun field hf => (h.fields field hf).2)

theorem RecordFits.depth {record : Record} (h : RecordFits levels record) :
    depthFields record ≤ levels := depthFields_le_iff.mpr fun field hf => (h.fields field hf).2

theorem RecordFits.sorted {record : Record} (h : RecordFits levels record) :
    (Json.object record).Sorted := (fits_object_iff.mpr h).1

theorem fits_list {items : List Json} (h : ∀ item ∈ items, Fits levels item) :
    Fits (levels + 1) (.list items) :=
  ⟨sortedList_iff.mpr fun item hi => (h item hi).1,
    Nat.succ_le_succ (depthList_le_iff.mpr fun item hi => (h item hi).2)⟩

theorem readValueWith_makes {onList onObject : Reader Json} (hl : Makes onList (Fits levels))
    (ho : Makes onObject (Fits levels)) : Makes (readValueWith onList onObject) (Fits levels) := by
  intro s value rest h
  unfold readValueWith at h
  split at h
  · cases h
  split_ifs at h
  · obtain ⟨s, -, h⟩ := bind_eq_ok.mp h
    cases h
    exact ⟨trivial, Nat.zero_le _⟩
  · obtain ⟨s, -, h⟩ := bind_eq_ok.mp h
    cases h
    exact ⟨trivial, Nat.zero_le _⟩
  · obtain ⟨s, -, h⟩ := bind_eq_ok.mp h
    cases h
    exact ⟨trivial, Nat.zero_le _⟩
  · obtain ⟨⟨content, s⟩, -, h⟩ := bind_eq_ok.mp h
    cases h
    exact ⟨trivial, Nat.zero_le _⟩
  · exact hl _ _ _ h
  · exact ho _ _ _ h
  · obtain ⟨⟨n, s⟩, -, h⟩ := bind_eq_ok.mp h
    cases h
    exact ⟨trivial, Nat.zero_le _⟩

/-- Every value that is read is in order and within the levels. -/
theorem readValue_makes (levels : Nat) : Makes (readValue levels) (Fits levels) := by
  induction levels with
  | zero => exact readValueWith_makes (fun _ _ _ h => by cases h) (fun _ _ _ h => by cases h)
  | succ levels ih =>
    apply readValueWith_makes
    · intro s value rest h
      obtain ⟨⟨items, s⟩, hitems, h⟩ := bind_eq_ok.mp h
      cases h
      exact fits_list (readItems_makes ih _ _ _ hitems)
    · intro s value rest h
      obtain ⟨⟨fields, s⟩, hfields, h⟩ := bind_eq_ok.mp h
      cases h
      exact fits_object_iff.mpr (readRecord_makes ih _ _ _ hfields)

theorem readListOf_makes {item : Reader α} {P : α → Prop} (hitem : Makes item P) :
    Makes (readListOf item) (fun xs => ∀ x ∈ xs, P x) := by
  intro s xs rest h
  unfold readListOf at h
  split at h
  · exact readItems_makes hitem _ _ _ h
  · unfold readMismatch at h
    split at h <;> cases h

theorem ofWhole_eq_ok {reader : Reader α} {text : String} {a : α}
    (h : ofWhole reader text = .ok a) : ∃ rest, reader text.toList = .ok (a, rest) := by
  obtain ⟨⟨value, rest⟩, hv, h⟩ := bind_eq_ok.mp h
  dsimp only at h
  split_ifs at h
  cases h
  exact ⟨rest, hv⟩

/-- The values of a list that was read as a whole text. -/
theorem readList_fits {text : String} {values : List Json} (h : readList text = .ok values) :
    ∀ value ∈ values, Fits (depthLimit - 1) value := by
  obtain ⟨rest, h⟩ := ofWhole_eq_ok h
  exact readListOf_makes (readValue_makes _) _ _ _ h

end Planner.Json

import Mathlib.Tactic

/-! Steps that may fail: when a chain of them succeeds, and when it fails. -/
namespace Planner.Outcome

variable {ε α β : Type} {x : Except ε α}

theorem bind_eq_ok {f : α → Except ε β} {b : β} :
    (x >>= f) = .ok b ↔ ∃ a, x = .ok a ∧ f a = .ok b := by
  cases x <;> simp [bind, Except.bind]

theorem bind_error {f : α → Except ε β} (h : ∃ e, x = .error e) :
    ∃ e, (x >>= f) = .error e := by
  obtain ⟨e, rfl⟩ := h
  exact ⟨e, rfl⟩

theorem mapError_eq_ok {ε' : Type} {f : ε → ε'} {a : α} : x.mapError f = .ok a ↔ x = .ok a := by
  cases x <;> simp [Except.mapError]

theorem exists_of_any {p : α → Bool} (h : x.toOption.any p = true) :
    ∃ a, x = .ok a ∧ p a = true := by
  cases x with
  | error e => cases h
  | ok a => exact ⟨a, rfl, h⟩

/-- Whether a step gives a result. -/
def Succeeds (x : Except ε α) : Prop := ∃ a, x = .ok a

namespace Succeeds

theorem pure (a : α) : Succeeds (Pure.pure a : Except ε α) := ⟨a, rfl⟩

theorem bind {f : α → Except ε β} (h : Succeeds x) (hnext : ∀ a, Succeeds (f a)) :
    Succeeds (x >>= f) := by
  obtain ⟨a, rfl⟩ := h
  exact hnext a

theorem mapError {ε' : Type} {f : ε → ε'} (h : Succeeds x) : Succeeds (x.mapError f) := by
  obtain ⟨a, rfl⟩ := h
  exact ⟨a, rfl⟩

theorem mapM {f : α → Except ε β} {items : List α} (h : ∀ a ∈ items, Succeeds (f a)) :
    Succeeds (items.mapM f) := by
  induction items with
  | nil => exact pure []
  | cons first rest ih =>
    obtain ⟨hfirst, hrest⟩ := List.forall_mem_cons.mp h
    rw [List.mapM_cons]
    exact hfirst.bind fun _ => (ih hrest).bind fun _ => pure _

end Succeeds

/-- Results come from the items, each of which gave one. -/
theorem of_mapM_eq_ok {f : α → Except ε β} {items : List α} {results : List β}
    (h : items.mapM f = .ok results) :
    (∀ a ∈ items, Succeeds (f a)) ∧ ∀ b, b ∈ results ↔ ∃ a ∈ items, f a = .ok b := by
  induction items generalizing results with
  | nil =>
    cases h
    simp
  | cons first rest ih =>
    rw [List.mapM_cons] at h
    obtain ⟨b, hfirst, h⟩ := bind_eq_ok.mp h
    obtain ⟨others, hrest, h⟩ := bind_eq_ok.mp h
    cases h
    obtain ⟨hall, hmem⟩ := ih hrest
    exact ⟨List.forall_mem_cons.mpr ⟨⟨b, hfirst⟩, hall⟩, by simp [hmem, hfirst, eq_comm]⟩

/-- What is the same for each item and its result is the same for the lists. -/
theorem map_of_mapM_eq_ok {γ : Type} {f : α → Except ε β} {items : List α} {results : List β}
    (h : items.mapM f = .ok results) {p : α → γ} {q : β → γ}
    (hsame : ∀ a b, f a = .ok b → q b = p a) : results.map q = items.map p := by
  induction items generalizing results with
  | nil =>
    cases h
    rfl
  | cons first rest ih =>
    rw [List.mapM_cons] at h
    obtain ⟨b, hfirst, h⟩ := bind_eq_ok.mp h
    obtain ⟨others, hrest, h⟩ := bind_eq_ok.mp h
    cases h
    rw [List.map_cons, List.map_cons, hsame first b hfirst, ih hrest]

/-- The results of chosen items are among those of all items, and they are the chosen ones of these
exactly when items and results are chosen alike. -/
theorem mapM_filter_eq_iff {f : α → Except ε β} {items : List α} {results : List β}
    (h : items.mapM f = .ok results) (p : α → Bool) (q : β → Bool) :
    ∃ kept, (items.filter p).mapM f = .ok kept ∧ kept.Sublist results ∧
      (kept = results.filter q ↔ ∀ a ∈ items, ∀ b, f a = .ok b → p a = q b) := by
  induction items generalizing results with
  | nil =>
    cases h
    exact ⟨[], rfl, .slnil, by simp⟩
  | cons first rest ih =>
    rw [List.mapM_cons] at h
    obtain ⟨b, hfirst, h⟩ := bind_eq_ok.mp h
    obtain ⟨others, hrest, h⟩ := bind_eq_ok.mp h
    cases h
    obtain ⟨kept, hkept, hsub, hiff⟩ := ih hrest
    simp only [List.forall_mem_cons, hfirst, Except.ok.injEq, forall_eq', ← hiff]
    cases hp : p first with
    | true =>
      refine ⟨b :: kept, ?_, hsub.cons_cons b, ?_⟩
      · rw [List.filter_cons_of_pos hp, List.mapM_cons, hfirst, hkept]
        rfl
      · cases hq : q b with
        | true => simp [hq]
        | false =>
          simp only [Bool.true_eq_false, false_and, iff_false]
          intro heq
          have hmem := heq ▸ List.mem_cons_self (a := b) (l := kept)
          simp [hq] at hmem
    | false =>
      refine ⟨kept, by rw [List.filter_cons_of_neg (by simp [hp]), hkept], hsub.cons b, ?_⟩
      cases hq : q b with
      | false => simp [hq]
      | true =>
        -- one result is chosen more, though no result of another item is kept that is not chosen
        simp only [Bool.false_eq_true, false_and, iff_false]
        intro heq
        have hall : kept.filter q = kept := by
          rw [heq, List.filter_filter]
          simp
        have hle := (hsub.filter q).length_le
        rw [hall, heq, List.filter_cons_of_pos hq, List.length_cons] at hle
        omega

theorem mapM_filter_eq {f : α → Except ε β} {items : List α} {results : List β} {p : α → Bool}
    {q : β → Bool} (h : items.mapM f = .ok results)
    (hsame : ∀ a ∈ items, ∀ b, f a = .ok b → p a = q b) :
    (items.filter p).mapM f = .ok (results.filter q) := by
  obtain ⟨kept, hkept, -, hiff⟩ := mapM_filter_eq_iff h p q
  rw [hkept, hiff.mpr hsame]

theorem filterMap_of_mapM_eq_ok {f : α → Except ε β} {items : List α} {results : List β}
    (h : items.mapM f = .ok results) : items.filterMap (fun a => (f a).toOption) = results := by
  induction items generalizing results with
  | nil =>
    cases h
    rfl
  | cons first rest ih =>
    rw [List.mapM_cons] at h
    obtain ⟨b, hfirst, h⟩ := bind_eq_ok.mp h
    obtain ⟨others, hrest, h⟩ := bind_eq_ok.mp h
    cases h
    rw [List.filterMap_cons_some (b := b) (by rw [hfirst]; rfl), ih hrest]

/-- The same items in another order have the same results in another order. -/
theorem perm_of_mapM_eq_ok {f : α → Except ε β} {items items' : List α} {results results' : List β}
    (h : items.mapM f = .ok results) (h' : items'.mapM f = .ok results') (hperm : items.Perm items') :
    results.Perm results' := by
  rw [← filterMap_of_mapM_eq_ok h, ← filterMap_of_mapM_eq_ok h']
  exact hperm.filterMap _

/-- Results are related as the items that they come from. -/
theorem pairwise_of_mapM_eq_ok {f : α → Except ε β} {items : List α} {results : List β}
    {S : β → β → Prop} (h : items.mapM f = .ok results)
    (hitems : items.Pairwise fun a b => ∀ c d, f a = .ok c → f b = .ok d → S c d) :
    results.Pairwise S := by
  induction items generalizing results with
  | nil =>
    cases h
    exact .nil
  | cons first rest ih =>
    rw [List.mapM_cons] at h
    obtain ⟨c, hfirst, h⟩ := bind_eq_ok.mp h
    obtain ⟨others, hrest, h⟩ := bind_eq_ok.mp h
    cases h
    obtain ⟨hbefore, hpairs⟩ := List.pairwise_cons.mp hitems
    refine List.pairwise_cons.mpr ⟨fun d hd => ?_, ih hrest hpairs⟩
    obtain ⟨b, hb, hread⟩ := ((of_mapM_eq_ok hrest).2 d).mp hd
    exact hbefore b hb c d hfirst hread

end Planner.Outcome

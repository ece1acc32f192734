import Mathlib.Tactic
import Planner.Json.Basic

/-! Records whose fields stand in the strict order of their names, which setting a field keeps. -/
namespace Planner.Record

variable {record fields : Record} {name : String} {value : Json}

def Ordered (record : Record) : Prop := record.Pairwise fun a b => a.1 < b.1

theorem mem_set {field : String × Json} (h : field ∈ record.set name value) :
    field = (name, value) ∨ field ∈ record := by
  induction record with
  | nil => exact .inl (List.mem_singleton.mp h)
  | cons head rest ih =>
    obtain ⟨key, old⟩ := head
    unfold set at h
    split_ifs at h
    · exact (List.mem_cons.mp h).imp_right (List.mem_cons_of_mem _)
    · exact List.mem_cons.mp h
    · rcases List.mem_cons.mp h with rfl | h
      · exact .inr (List.mem_cons_self ..)
      · exact (ih h).imp_right (List.mem_cons_of_mem _)

theorem ordered_set (h : record.Ordered) (name : String) (value : Json) :
    (record.set name value).Ordered := by
  induction record with
  | nil => exact List.pairwise_singleton _ _
  | cons head rest ih =>
    obtain ⟨key, old⟩ := head
    obtain ⟨hhead, hrest⟩ := List.pairwise_cons.mp h
    unfold set
    split_ifs with heq hlt
    · subst heq
      exact List.pairwise_cons.mpr ⟨hhead, hrest⟩
    · refine List.pairwise_cons.mpr ⟨fun field hf => ?_, h⟩
      rcases List.mem_cons.mp hf with rfl | hf
      · exact hlt
      · exact String.lt_trans hlt (hhead field hf)
    · have hgt : key < name := Std.lt_of_le_of_ne (Std.not_lt.mp hlt) heq
      refine List.pairwise_cons.mpr ⟨fun field hf => ?_, ih hrest⟩
      rcases mem_set hf with rfl | hf
      · exact hgt
      · exact hhead field hf

theorem mem_set_iff (h : record.Ordered) {field : String × Json} :
    field ∈ record.set name value ↔ field = (name, value) ∨ field ∈ record ∧ field.1 ≠ name := by
  induction record with
  | nil => simp [set]
  | cons head rest ih =>
    obtain ⟨key, old⟩ := head
    obtain ⟨hhead, hrest⟩ := List.pairwise_cons.mp h
    have hne : ∀ {other : String}, (∀ f ∈ rest, other < f.1) → field ∈ rest → field.1 ≠ other := by
      rintro other hlt hf rfl
      exact String.lt_irrefl _ (hlt field hf)
    unfold set
    split_ifs with heq hlt
    · subst heq
      simp only [List.mem_cons]
      have := hne hhead
      constructor
      · tauto
      · rintro (rfl | ⟨rfl | hf, hneq⟩)
        · exact .inl rfl
        · exact absurd rfl hneq
        · exact .inr hf
    · have := hne fun f hf => String.lt_trans hlt (hhead f hf)
      have hkey : field = (key, old) → field.1 ≠ name := by
        rintro rfl
        exact heq
      simp only [List.mem_cons]
      tauto
    · have hkey : field = (key, old) → field.1 ≠ name := by
        rintro rfl
        exact heq
      simp only [List.mem_cons, ih hrest]
      tauto

theorem set_of_lt (h : ∀ field ∈ record, field.1 < name) :
    record.set name value = record ++ [(name, value)] := by
  induction record with
  | nil => rfl
  | cons head rest ih =>
    obtain ⟨key, old⟩ := head
    have hlt : key < name := h (key, old) (List.mem_cons_self ..)
    have hne : key ≠ name := by
      rintro rfl
      exact String.lt_irrefl _ hlt
    unfold set
    rw [if_neg hne, if_neg (String.lt_asymm hlt), ih fun field hf => h field (.tail _ hf)]
    rfl

theorem foldl_set (P : String → Json → Prop) (hr : ∀ field ∈ record, P field.1 field.2)
    (hf : ∀ field ∈ fields, P field.1 field.2) :
    ∀ field ∈ fields.foldl (fun record field => record.set field.1 field.2) record,
      P field.1 field.2 := by
  induction fields generalizing record with
  | nil => exact hr
  | cons first rest ih =>
    refine ih (fun field h => ?_) fun field h => hf field (.tail _ h)
    rcases mem_set h with rfl | h
    · exact hf first (List.mem_cons_self ..)
    · exact hr field h

theorem ordered_foldl_set (h : record.Ordered) :
    Ordered (fields.foldl (fun record field => record.set field.1 field.2) record) := by
  induction fields generalizing record with
  | nil => exact h
  | cons first rest ih => exact ih (ordered_set h _ _)

theorem ordered_ofFields (fields : Record) : (ofFields fields).Ordered :=
  ordered_foldl_set List.Pairwise.nil

/-- Setting fields one by one sets the last of each name, and leaves the fields of other names. -/
theorem mem_foldl_set_iff (h : record.Ordered) {field : String × Json} :
    field ∈ fields.foldl (fun record field => record.set field.1 field.2) record ↔
      field ∈ ofFields fields ∨ field ∈ record ∧ ∀ other ∈ fields, field.1 ≠ other.1 := by
  induction fields using List.reverseRecOn with
  | nil => simp [ofFields]
  | append_singleton rest last ih =>
    have hordered := ordered_ofFields rest
    unfold ofFields at ih hordered ⊢
    rw [List.foldl_append, List.foldl_append]
    simp only [List.foldl_cons, List.foldl_nil]
    rw [mem_set_iff (ordered_foldl_set h), mem_set_iff hordered, ih, List.forall_mem_append,
      List.forall_mem_singleton]
    tauto

/-- Fields that stand in order already are set one behind the other. -/
theorem foldl_set_of_ordered (h : Ordered (record ++ fields)) :
    fields.foldl (fun record field => record.set field.1 field.2) record = record ++ fields := by
  induction fields generalizing record with
  | nil => simp
  | cons first rest ih =>
    have hlt : ∀ field ∈ record, field.1 < first.1 := fun field hf =>
      (List.pairwise_append.mp h).2.2 field hf first (List.mem_cons_self ..)
    rw [List.append_cons] at h
    rw [List.foldl_cons, set_of_lt hlt, ih h, ← List.append_cons]

theorem ofFields_of_ordered (h : record.Ordered) : ofFields record = record := by
  have hset : ofFields record = [] ++ record := foldl_set_of_ordered h
  exact hset

end Planner.Record

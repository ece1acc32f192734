import Planner.Entity.Layout
import Planner.Proofs.Store.Keys
import Planner.Store.Entities

/-! Rows that fit a layout: every column that has to be there is, and each passes its check. Such a
row is read, and stays so when columns are set to what they accept. -/
namespace Planner

open Json (Fault)
open Outcome

namespace Record

variable {row : Record} {fields : List (String × Json)} {name other : String} {value : Json}

theorem has_set : (row.set other value).has name = true ↔ row.has name = true ∨ other = name := by
  by_cases h : other = name
  · subst h
    simp [has, get?_set_self]
  · simp [has, get?_set_ne (Ne.symm h), h]

theorem has_foldl_set :
    Record.has name (fields.foldl (fun row field => row.set field.1 field.2) row) = true ↔
      row.has name = true ∨ name ∈ fields.map Prod.fst := by
  induction fields generalizing row with
  | nil => simp
  | cons first rest ih =>
    rw [List.foldl_cons, ih, has_set, List.map_cons, List.mem_cons]
    tauto

end Record

namespace Layout

variable {layout : Layout} {row : Record} {fields : List (String × Json)} {name : String}
  {value : Json} {column : Column} {α : Type}

/-- The first column of a name. -/
def column? (name : String) (layout : Layout) : Option Column :=
  layout.columns.find? (·.name = name)

/-- Whether a field is of no column, or passes the check of its column. -/
def Accepts (layout : Layout) (field : String × Json) : Prop :=
  ∀ column ∈ layout.column? field.1, column.check field.2 = .ok ()

/-- A row that has every column that has to be there, with values that pass their checks. -/
structure Fits (layout : Layout) (row : Record) : Prop where
  accepts : ∀ field ∈ row, layout.Accepts field
  complete : ∀ column ∈ layout.columns, column.required = true → row.has column.name = true

theorem accepts_of (hcolumn : layout.column? name = some column) (hcheck : column.check value = .ok ()) :
    layout.Accepts (name, value) := by
  intro other hother
  cases hcolumn.symm.trans hother
  exact hcheck

theorem succeeds_of_checked {read : Json → Except Fault α} (h : Column.checked read value = .ok ()) :
    Succeeds (read value) := by
  obtain ⟨a, ha, -⟩ := bind_eq_ok.mp h
  exact ⟨a, ha⟩

theorem checkFields_eq_ok_iff :
    checkFields layout.columns row = .ok () ↔ ∀ field ∈ row, layout.Accepts field := by
  induction row with
  | nil => exact iff_of_true rfl (List.forall_mem_nil _)
  | cons first rest ih =>
    have hfirst : layout.Accepts first ↔
        ∀ column ∈ layout.columns.find? (·.name = first.1), column.check first.2 = .ok () := Iff.rfl
    rw [List.forall_mem_cons, hfirst]
    unfold checkFields
    cases layout.columns.find? (·.name = first.1) with
    | none => simp [bind, Except.bind, ih]
    | some column =>
      simp only [Option.mem_some_iff, forall_eq', bind, Except.bind]
      cases column.check first.2 <;> simp [ih]

/-- Every field of a row that was read is accepted. -/
theorem accepts_of_row {read : Record} (h : layout.row (.object row) = .ok read) :
    ∀ field ∈ row, layout.Accepts field := by
  obtain ⟨⟨⟩, hcheck, -⟩ := bind_eq_ok.mp h
  exact checkFields_eq_ok_iff.mp hcheck

theorem row_of_accepts (h : ∀ field ∈ row, layout.Accepts field) :
    layout.row (.object row) = .ok row :=
  bind_eq_ok.mpr ⟨(), checkFields_eq_ok_iff.mpr h, rfl⟩

/-- A column that may be missing is read from a row of which every field is accepted. -/
theorem optional_of_accepts (h : ∀ field ∈ row, layout.Accepts field) {read : Json → Except Fault α}
    (absent : α) (hcolumn : layout.column? name = some (.optional name read)) :
    Succeeds (row.optional name absent read) := by
  unfold Record.optional
  cases hvalue : row.get? name with
  | none => exact .pure absent
  | some value => exact succeeds_of_checked (h _ (Record.mem_of_get? hvalue) _ hcolumn)

namespace Fits

theorem check (h : layout.Fits row) (hcolumn : layout.column? name = some column)
    (hvalue : row.get? name = some value) : column.check value = .ok () :=
  h.accepts (name, value) (Record.mem_of_get? hvalue) column hcolumn

theorem required (h : layout.Fits row) {read : Json → Except Fault α}
    (hcolumn : layout.column? name = some (.mandatory name read)) :
    Succeeds (row.required name read) := by
  obtain ⟨value, hvalue⟩ := Option.isSome_iff_exists.mp
    (h.complete _ (List.mem_of_find?_eq_some hcolumn) rfl)
  have hread := succeeds_of_checked (h.check hcolumn hvalue)
  unfold Record.required
  change row.get? name = some value at hvalue
  rw [hvalue]
  exact hread

theorem optional (h : layout.Fits row) {read : Json → Except Fault α} (absent : α)
    (hcolumn : layout.column? name = some (.optional name read)) :
    Succeeds (row.optional name absent read) := optional_of_accepts h.accepts absent hcolumn

theorem row_object (h : layout.Fits row) : layout.row (.object row) = .ok row :=
  row_of_accepts h.accepts

/-- A row that is read by its fields is read as a value. -/
theorem object (h : layout.Fits row) {read : Record → Except Fault α} (hread : Succeeds (read row)) :
    Succeeds (do read (← layout.row (.object row))) := by
  rw [h.row_object]
  exact hread

theorem foldl_set (h : layout.Fits row) (hfields : ∀ field ∈ fields, layout.Accepts field) :
    layout.Fits (fields.foldl (fun row field => row.set field.1 field.2) row) where
  accepts := Record.foldl_set (fun name value => layout.Accepts (name, value)) h.accepts hfields
  complete column hcolumn hrequired :=
    Record.has_foldl_set.mpr (.inl (h.complete column hcolumn hrequired))

theorem ofFields (hfields : ∀ field ∈ fields, layout.Accepts field)
    (hnames : ∀ column ∈ layout.columns, column.required = true →
      column.name ∈ fields.map Prod.fst) : layout.Fits (.ofFields fields) where
  accepts := Record.foldl_set (fun name value => layout.Accepts (name, value)) (by simp) hfields
  complete column hcolumn hrequired :=
    Record.has_foldl_set.mpr (.inr (hnames column hcolumn hrequired))

end Fits

/-- What may be set in a column is accepted by it. -/
theorem accepts_assign {toJson : α → Json} {set : Option α}
    (hcolumn : layout.column? name = some column) (hcheck : ∀ a, column.check (toJson a) = .ok ()) :
    ∀ field ∈ assign name toJson set, layout.Accepts field := by
  intro field hf
  obtain ⟨a, -, rfl⟩ := Option.map_eq_some_iff.mp hf
  exact accepts_of hcolumn (hcheck a)

theorem accepts_filterMap {assigned : List (Option (String × Json))}
    (h : ∀ field? ∈ assigned, ∀ field ∈ field?, layout.Accepts field) :
    ∀ field ∈ assigned.filterMap id, layout.Accepts field := by
  intro field hf
  obtain ⟨field?, hmem, hsome⟩ := List.mem_filterMap.mp hf
  exact h field? hmem field hsome

/-- The column of the last change accepts a moment. -/
theorem accepts_updatedAt (now : String)
    (hcolumn : layout.column? "updated_at" = some (.mandatory "updated_at" Json.asText))
    (h : ∀ field ∈ fields, layout.Accepts field) :
    ∀ field ∈ fields ++ [("updated_at", .text now)], layout.Accepts field :=
  List.forall_mem_append.mpr ⟨h, List.forall_mem_singleton.mpr (accepts_of hcolumn rfl)⟩

end Layout
end Planner

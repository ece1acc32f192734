import Planner.Habits
import Planner.Notes
import Planner.Proofs.Json.Reread
import Planner.Routines
import Planner.Tasks

/-! The fields that actions write: an id where a row is added, and plain values in other columns. -/
namespace Planner

open Json

/-- A value that is neither a list nor an object nor a double. -/
def Json.Plain (value : Json) : Prop := value.depth = 0 ∧ value.doubles = []

theorem Json.Plain.sorted {value : Json} (h : value.Plain) : value.Sorted := by
  cases value with
  | null | bool | number | text => trivial
  | list | object => simp [Plain, depth] at h

theorem Json.Plain.reread_eq {value : Json} (h : value.Plain) : value.reread = value :=
  reread_eq_self (by simp [h.2])

theorem Json.plain_text (s : String) : (Json.text s).Plain := ⟨rfl, rfl⟩

theorem Json.plain_ofOptionalText (s : Option String) : (Json.ofOptionalText s).Plain := by
  cases s <;> exact ⟨rfl, rfl⟩

theorem Json.plain_ofBool (b : Bool) : (Json.number (.integer (.ofBool b))).Plain := ⟨rfl, rfl⟩

/-- Plain values in columns other than the id. -/
structure Others (fields : List (String × Json)) : Prop where
  names : ∀ field ∈ fields, field.1 ≠ "id"
  plain : ∀ field ∈ fields, field.2.Plain

/-- The columns of a row: its id, and plain values behind it. -/
def Columns (id : String) (columns : List (String × Json)) : Prop :=
  ∃ others, columns = ("id", .text id) :: others ∧ Others others

variable {fields more : List (String × Json)} {name : String}

theorem Others.append (h : Others fields) (hmore : Others more) : Others (fields ++ more) :=
  ⟨List.forall_mem_append.mpr ⟨h.names, hmore.names⟩,
    List.forall_mem_append.mpr ⟨h.plain, hmore.plain⟩⟩

theorem Columns.plain (h : Columns name fields) : ∀ field ∈ fields, field.2.Plain := by
  obtain ⟨others, rfl, hothers⟩ := h
  exact List.forall_mem_cons.mpr ⟨plain_text name, hothers.plain⟩

/-- A moment in the column of the last change. -/
theorem others_updatedAt (now : String) : Others [("updated_at", .text now)] :=
  ⟨by simp, List.forall_mem_singleton.mpr (plain_text now)⟩

/-- What may be set in a column is a plain value in a column other than the id. -/
def MayBeSet (field? : Option (String × Json)) : Prop :=
  ∀ field ∈ field?, field.1 ≠ "id" ∧ field.2.Plain

theorem mayBeSet_assign {α : Type} {column : String} {toJson : α → Json} {value : Option α}
    (hname : column ≠ "id") (h : ∀ a, (toJson a).Plain) :
    MayBeSet (assign column toJson value) := by
  intro field hf
  obtain ⟨a, -, rfl⟩ := Option.map_eq_some_iff.mp hf
  exact ⟨hname, h a⟩

theorem others_filterMap {assigned : List (Option (String × Json))}
    (h : ∀ field? ∈ assigned, MayBeSet field?) : Others (assigned.filterMap id) := by
  have hall : ∀ field ∈ assigned.filterMap id, field.1 ≠ "id" ∧ field.2.Plain := by
    intro field hf
    obtain ⟨field?, hmem, hsome⟩ := List.mem_filterMap.mp hf
    exact h field? hmem field hsome
  exact ⟨fun field hf => (hall field hf).1, fun field hf => (hall field hf).2⟩

/-! ### Entities -/

theorem Task.columns_id (t : Task) : Columns t.id t.columns := by
  refine ⟨_, rfl, by simp, ?_⟩
  simp only [List.forall_mem_cons]
  exact ⟨plain_text _, plain_ofOptionalText _, plain_text _, plain_text _, plain_ofOptionalText _,
    plain_text _, plain_text _, by simp⟩

theorem Subtask.columns_id (s : Subtask) : Columns s.id s.columns := by
  refine ⟨_, rfl, by simp, ?_⟩
  simp only [List.forall_mem_cons]
  exact ⟨plain_text _, plain_text _, plain_ofBool _, plain_text _, by simp⟩

theorem Note.columns_id (n : Note) : Columns n.id n.columns := by
  refine ⟨_, rfl, by simp, ?_⟩
  simp only [List.forall_mem_cons]
  exact ⟨plain_text _, plain_text _, plain_text _, plain_text _, plain_text _, plain_text _,
    by simp⟩

theorem Event.columns_id (e : Event) : Columns e.id e.columns := by
  refine ⟨_, rfl, by simp, ?_⟩
  simp only [List.forall_mem_cons]
  exact ⟨plain_text _, plain_ofOptionalText _, plain_text _, plain_ofOptionalText _,
    plain_ofOptionalText _, plain_text _, plain_text _, plain_text _, plain_text _, by simp⟩

theorem Habit.columns_id (h : Habit) : Columns h.id h.columns := by
  refine ⟨_, rfl, by simp, ?_⟩
  simp only [List.forall_mem_cons]
  exact ⟨plain_text _, plain_text _, plain_text _, plain_text _, by simp⟩

theorem HabitLog.columns_id (l : HabitLog) : Columns l.id l.columns := by
  refine ⟨_, rfl, by simp, ?_⟩
  simp only [List.forall_mem_cons]
  exact ⟨plain_text _, plain_text _, plain_ofBool _, by simp⟩

theorem Routine.columns_id (r : Routine) : Columns r.id r.columns := by
  refine ⟨_, rfl, by simp, ?_⟩
  simp only [List.forall_mem_cons]
  exact ⟨plain_text _, plain_text _, plain_text _, plain_text _, plain_text _, plain_text _,
    plain_text _, by simp⟩

/-! ### Changes -/

theorem TaskPatch.others (patch : TaskPatch) : Others patch.assignments := by
  refine others_filterMap ?_
  simp only [List.forall_mem_cons]
  exact ⟨mayBeSet_assign (by decide) plain_text, mayBeSet_assign (by decide) plain_ofOptionalText,
    mayBeSet_assign (by decide) fun _ => plain_text _,
    mayBeSet_assign (by decide) fun _ => plain_text _,
    mayBeSet_assign (by decide) plain_ofOptionalText, by simp⟩

theorem NotePatch.others (patch : NotePatch) : Others patch.assignments := by
  refine others_filterMap ?_
  simp only [List.forall_mem_cons]
  exact ⟨mayBeSet_assign (by decide) plain_text, mayBeSet_assign (by decide) plain_text,
    mayBeSet_assign (by decide) plain_text, mayBeSet_assign (by decide) fun _ => plain_text _,
    by simp⟩

theorem EventPatch.others (patch : EventPatch) : Others patch.assignments := by
  refine others_filterMap ?_
  simp only [List.forall_mem_cons]
  exact ⟨mayBeSet_assign (by decide) plain_text, mayBeSet_assign (by decide) plain_ofOptionalText,
    mayBeSet_assign (by decide) plain_text, mayBeSet_assign (by decide) plain_ofOptionalText,
    mayBeSet_assign (by decide) plain_ofOptionalText, mayBeSet_assign (by decide) plain_text,
    mayBeSet_assign (by decide) fun _ => plain_text _, by simp⟩

theorem HabitPatch.others (patch : HabitPatch) : Others patch.assignments := by
  refine others_filterMap ?_
  simp only [List.forall_mem_cons]
  exact ⟨mayBeSet_assign (by decide) plain_text, mayBeSet_assign (by decide) fun _ => plain_text _,
    mayBeSet_assign (by decide) plain_text, by simp⟩

theorem RoutinePatch.others (patch : RoutinePatch) : Others patch.assignments := by
  refine others_filterMap ?_
  simp only [List.forall_mem_cons]
  exact ⟨mayBeSet_assign (by decide) plain_text, mayBeSet_assign (by decide) plain_text,
    mayBeSet_assign (by decide) plain_text, mayBeSet_assign (by decide) fun _ => plain_text _,
    mayBeSet_assign (by decide) plain_text, mayBeSet_assign (by decide) plain_text, by simp⟩

end Planner

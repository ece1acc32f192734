import Planner.Proofs.Entity.Layout
import Planner.Proofs.Json.ReadBack
import Planner.Proofs.Store.Fields

/-! What actions write as an entity, whole or in part, fits the layout that the entity is read by. -/
namespace Planner

open Json (Fault)
open Outcome Layout

variable {row : Record}

/-! ### Values -/

theorem asOptionalText_ofOptionalText (s : Option String) :
    Json.asOptionalText (.ofOptionalText s) = .ok s := by
  cases s <;> rfl

theorem checked_asOptionalText (s : Option String) :
    Column.checked Json.asOptionalText (.ofOptionalText s) = .ok () := by
  rw [Column.checked, asOptionalText_ofOptionalText]
  rfl

/-- A type of which each member is found by its name. -/
class Named (α : Type) [Choice α] : Prop where
  ofName?_name : ∀ a : α, Choice.ofName? (Choice.name a) = some a

instance : Named Priority := ⟨by rintro (_ | _ | _) <;> rfl⟩

instance : Named TaskStatus := ⟨by rintro (_ | _) <;> rfl⟩

instance : Named EventType := ⟨by rintro (_ | _ | _ | _) <;> rfl⟩

instance : Named Frequency := ⟨by rintro (_ | _) <;> rfl⟩

theorem Choice.name_injective {α : Type} [Choice α] [Named α] :
    Function.Injective (Choice.name : α → String) := by
  intro a b h
  have hsame := Named.ofName?_name a
  rw [h, Named.ofName?_name b] at hsame
  exact (Option.some.inj hsame).symm

theorem read_name {α : Type} [Choice α] [Named α] (a : α) :
    (Choice.read (.text (Choice.name a)) : Except Fault α) = .ok a := by
  simp only [Choice.read, Choice.ofName, Named.ofName?_name]

theorem checked_choice {α : Type} [Choice α] [Named α] (a : α) :
    Column.checked (Choice.read (α := α)) (.text (Choice.name a)) = .ok () := by
  rw [Column.checked, read_name]
  rfl

theorem TextList.ofColumn_toText (texts : List String) :
    TextList.ofColumn (Json.ofTexts texts).toText = .ok texts := Json.readTexts_toText texts

/-- A folder without a name is taken for the default one. -/
theorem Note.readFolder_text {folder : String} (h : folder ≠ "") :
    readFolder (.text folder) = .ok folder := by
  have hread : readFolder (.text folder) =
      .ok (if folder.isEmpty then defaultFolder else folder) := rfl
  rw [hread, if_neg (by rwa [String.isEmpty_iff])]

theorem Note.readTags_column (tags : List String) : readTags (TextList.column tags) = .ok tags := by
  have hread : readTags (TextList.column tags) = if (Json.ofTexts tags).toText.isEmpty then .ok []
      else TextList.ofColumn (Json.ofTexts tags).toText := rfl
  have htags := TextList.ofColumn_toText tags
  rw [hread, htags]
  split_ifs with hempty
  · -- the text of a list is never empty: the empty text is not read as one
    rw [String.isEmpty_iff.mp hempty] at htags
    cases htags
  · rfl

theorem Routine.readDays_column (days : List String) :
    readDays (TextList.column days) = .ok days := TextList.ofColumn_toText days

theorem checked_readTags (tags : List String) :
    Column.checked Note.readTags (TextList.column tags) = .ok () := by
  rw [Column.checked, Note.readTags_column]
  rfl

theorem checked_readFolder (folder : String) :
    Column.checked Note.readFolder (.text folder) = .ok () := rfl

theorem checked_readDays (days : List String) :
    Column.checked Routine.readDays (TextList.column days) = .ok () := by
  rw [Column.checked, Routine.readDays_column]
  rfl

/-! ### Tasks and subtasks -/

namespace Task

theorem ofJson_fits (h : layout.Fits row) : Succeeds (ofJson (.object row)) :=
  h.object <| (h.required rfl).bind fun _ => (h.required rfl).bind fun _ =>
    (h.optional none rfl).bind fun _ => (h.required rfl).bind fun _ => (h.required rfl).bind fun _ =>
    (h.optional none rfl).bind fun _ => (h.required rfl).bind fun _ => (h.required rfl).bind fun _ =>
    (h.optional [] rfl).bind fun _ => .pure _

theorem fits_columns (t : Task) : layout.Fits (.ofFields t.columns) := by
  refine .ofFields ?_ (by simp [layout, columns, Column.mandatory, Column.optional])
  simp only [columns, List.forall_mem_cons]
  exact ⟨accepts_of rfl rfl, accepts_of rfl rfl, accepts_of rfl (checked_asOptionalText _),
    accepts_of rfl (checked_choice _), accepts_of rfl (checked_choice _),
    accepts_of rfl (checked_asOptionalText _), accepts_of rfl rfl, accepts_of rfl rfl, by simp⟩

theorem accepts_patch (patch : TaskPatch) : ∀ field ∈ patch.assignments, layout.Accepts field := by
  refine accepts_filterMap ?_
  simp only [List.forall_mem_cons]
  exact ⟨accepts_assign rfl fun _ => rfl, accepts_assign rfl checked_asOptionalText,
    accepts_assign rfl checked_choice, accepts_assign rfl checked_choice,
    accepts_assign rfl checked_asOptionalText, by simp⟩

/-- The columns of a task are read as the task; subtasks have a table of their own. -/
theorem ofJson_columns {task : Task} (h : task.subtasks = []) :
    ofJson (.object (Record.ofFields task.columns)) = .ok task := by
  refine bind_eq_ok.mpr ⟨_, task.fits_columns.row_object, ?_⟩
  simp [ofRow, Record.required, Record.optional, columns, Record.ofFields, Record.get?_set_self,
    Record.get?_set_ne, Json.asText, read_name, asOptionalText_ofOptionalText, bind, Except.bind,
    pure, Except.pure, Record.get?, ← h]

end Task

namespace Subtask

theorem ofJson_fits (h : layout.Fits row) : Succeeds (ofJson (.object row)) :=
  h.object <| (h.required rfl).bind fun _ => (h.required rfl).bind fun _ =>
    (h.required rfl).bind fun _ => (h.required rfl).bind fun _ => (h.required rfl).bind fun _ => .pure _

theorem fits_columns (s : Subtask) : layout.Fits (.ofFields s.columns) := by
  refine .ofFields ?_ (by simp [layout, columns, Column.mandatory])
  simp only [columns, List.forall_mem_cons]
  exact ⟨accepts_of rfl rfl, accepts_of rfl rfl, accepts_of rfl rfl, accepts_of rfl rfl,
    accepts_of rfl rfl, by simp⟩

end Subtask

/-! ### Notes -/

namespace Note

theorem ofJson_fits (h : layout.Fits row) : Succeeds (ofJson (.object row)) :=
  h.object <| (h.required rfl).bind fun _ => (h.required rfl).bind fun _ =>
    (h.optional "" rfl).bind fun _ => (h.optional defaultFolder rfl).bind fun _ =>
    (h.optional [] rfl).bind fun _ => (h.required rfl).bind fun _ => (h.required rfl).bind fun _ => .pure _

theorem fits_columns (n : Note) : layout.Fits (.ofFields n.columns) := by
  refine .ofFields ?_ (by simp [layout, columns, Column.mandatory, Column.optional])
  simp only [columns, List.forall_mem_cons]
  exact ⟨accepts_of rfl rfl, accepts_of rfl rfl, accepts_of rfl rfl,
    accepts_of rfl (checked_readFolder _), accepts_of rfl (checked_readTags _), accepts_of rfl rfl,
    accepts_of rfl rfl, by simp⟩

theorem accepts_patch (patch : NotePatch) : ∀ field ∈ patch.assignments, layout.Accepts field := by
  refine accepts_filterMap ?_
  simp only [List.forall_mem_cons]
  exact ⟨accepts_assign rfl fun _ => rfl, accepts_assign rfl fun _ => rfl,
    accepts_assign rfl checked_readFolder, accepts_assign rfl checked_readTags, by simp⟩

/-- The columns of a note in a folder with a name are read as the note. -/
theorem ofJson_columns {note : Note} (h : note.folder ≠ "") :
    ofJson (.object (Record.ofFields note.columns)) = .ok note := by
  refine bind_eq_ok.mpr ⟨_, note.fits_columns.row_object, ?_⟩
  have hcontent : readContent (.text note.content) = .ok note.content := rfl
  simp [ofRow, Record.required, Record.optional, columns, Record.ofFields, Record.get?_set_self,
    Record.get?_set_ne, Json.asText, hcontent, readFolder_text h, readTags_column, bind, Except.bind,
    pure, Except.pure]

end Note

/-! ### Events -/

namespace Event

theorem ofJson_fits (h : layout.Fits row) : Succeeds (ofJson (.object row)) :=
  h.object <| (h.required rfl).bind fun _ => (h.required rfl).bind fun _ =>
    (h.optional none rfl).bind fun _ => (h.required rfl).bind fun _ =>
    (h.optional none rfl).bind fun _ => (h.optional none rfl).bind fun _ =>
    (h.required rfl).bind fun _ => (h.required rfl).bind fun _ => (h.required rfl).bind fun _ =>
    (h.required rfl).bind fun _ => .pure _

theorem fits_columns (e : Event) : layout.Fits (.ofFields e.columns) := by
  refine .ofFields ?_ (by simp [layout, columns, Column.mandatory, Column.optional])
  simp only [columns, List.forall_mem_cons]
  exact ⟨accepts_of rfl rfl, accepts_of rfl rfl, accepts_of rfl (checked_asOptionalText _),
    accepts_of rfl rfl, accepts_of rfl (checked_asOptionalText _),
    accepts_of rfl (checked_asOptionalText _), accepts_of rfl rfl, accepts_of rfl (checked_choice _),
    accepts_of rfl rfl, accepts_of rfl rfl, by simp⟩

theorem accepts_patch (patch : EventPatch) : ∀ field ∈ patch.assignments, layout.Accepts field := by
  refine accepts_filterMap ?_
  simp only [List.forall_mem_cons]
  exact ⟨accepts_assign rfl fun _ => rfl, accepts_assign rfl checked_asOptionalText,
    accepts_assign rfl fun _ => rfl, accepts_assign rfl checked_asOptionalText,
    accepts_assign rfl checked_asOptionalText, accepts_assign rfl fun _ => rfl,
    accepts_assign rfl checked_choice, by simp⟩

theorem ofJson_columns (e : Event) : ofJson (.object (Record.ofFields e.columns)) = .ok e := by
  refine bind_eq_ok.mpr ⟨_, e.fits_columns.row_object, ?_⟩
  simp [ofRow, Record.required, Record.optional, columns, Record.ofFields, Record.get?_set_self,
    Record.get?_set_ne, Json.asText, read_name, asOptionalText_ofOptionalText, bind, Except.bind,
    pure, Except.pure]

end Event

/-! ### Habits and their log -/

namespace Habit

theorem ofJson_fits (h : layout.Fits row) : Succeeds (ofJson (.object row)) :=
  h.object <| (h.required rfl).bind fun _ => (h.required rfl).bind fun _ =>
    (h.required rfl).bind fun _ => (h.required rfl).bind fun _ => (h.required rfl).bind fun _ => .pure _

theorem fits_columns (habit : Habit) : layout.Fits (.ofFields habit.columns) := by
  refine .ofFields ?_ (by simp [layout, columns, Column.mandatory])
  simp only [columns, List.forall_mem_cons]
  exact ⟨accepts_of rfl rfl, accepts_of rfl rfl, accepts_of rfl (checked_choice _),
    accepts_of rfl rfl, accepts_of rfl rfl, by simp⟩

theorem accepts_patch (patch : HabitPatch) : ∀ field ∈ patch.assignments, layout.Accepts field := by
  refine accepts_filterMap ?_
  simp only [List.forall_mem_cons]
  exact ⟨accepts_assign rfl fun _ => rfl, accepts_assign rfl checked_choice,
    accepts_assign rfl fun _ => rfl, by simp⟩

theorem ofJson_columns (habit : Habit) :
    ofJson (.object (Record.ofFields habit.columns)) = .ok habit := by
  refine bind_eq_ok.mpr ⟨_, habit.fits_columns.row_object, ?_⟩
  simp [ofRow, Record.required, columns, Record.ofFields, Record.get?_set_self, Record.get?_set_ne,
    Json.asText, read_name, bind, Except.bind, pure, Except.pure]

end Habit

namespace HabitLog

theorem ofJson_fits (h : layout.Fits row) : Succeeds (ofJson (.object row)) :=
  h.object <| (h.required rfl).bind fun _ => (h.required rfl).bind fun _ =>
    (h.required rfl).bind fun _ => (h.required rfl).bind fun _ => .pure _

theorem fits_columns (l : HabitLog) : layout.Fits (.ofFields l.columns) := by
  refine .ofFields ?_ (by simp [layout, columns, Column.mandatory])
  simp only [columns, List.forall_mem_cons]
  exact ⟨accepts_of rfl rfl, accepts_of rfl rfl, accepts_of rfl rfl, accepts_of rfl rfl, by simp⟩

end HabitLog

/-! ### Routines -/

namespace Routine

theorem ofJson_fits (h : layout.Fits row) : Succeeds (ofJson (.object row)) :=
  h.object <| (h.required rfl).bind fun _ => (h.required rfl).bind fun _ =>
    (h.required rfl).bind fun _ => (h.required rfl).bind fun _ => (h.required rfl).bind fun _ =>
    (h.required rfl).bind fun _ => (h.required rfl).bind fun _ => (h.required rfl).bind fun _ => .pure _

theorem fits_columns (r : Routine) : layout.Fits (.ofFields r.columns) := by
  refine .ofFields ?_ (by simp [layout, columns, Column.mandatory])
  simp only [columns, List.forall_mem_cons]
  exact ⟨accepts_of rfl rfl, accepts_of rfl rfl, accepts_of rfl rfl, accepts_of rfl rfl,
    accepts_of rfl (checked_readDays _), accepts_of rfl rfl, accepts_of rfl rfl, accepts_of rfl rfl,
    by simp⟩

theorem accepts_patch (patch : RoutinePatch) :
    ∀ field ∈ patch.assignments, layout.Accepts field := by
  refine accepts_filterMap ?_
  simp only [List.forall_mem_cons]
  exact ⟨accepts_assign rfl fun _ => rfl, accepts_assign rfl fun _ => rfl,
    accepts_assign rfl fun _ => rfl, accepts_assign rfl checked_readDays,
    accepts_assign rfl fun _ => rfl, accepts_assign rfl fun _ => rfl, by simp⟩

theorem ofJson_columns (r : Routine) : ofJson (.object (Record.ofFields r.columns)) = .ok r := by
  refine bind_eq_ok.mpr ⟨_, r.fits_columns.row_object, ?_⟩
  simp [ofRow, Record.required, columns, Record.ofFields, Record.get?_set_self, Record.get?_set_ne,
    Json.asText, readDays_column, bind, Except.bind, pure, Except.pure]

end Routine

end Planner

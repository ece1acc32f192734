import Planner.Proofs.Entity.Entities
import Planner.Proofs.Entity.Reading
import Planner.Proofs.Store.Placing

/-! Rows of which columns were set and whose doubles were then read anew: such a row is read as the
entity that it was read as before, but for the members that were set. -/
namespace Planner

open Json (Fault)
open Outcome

variable {row read' : Record} {fields : List (String × Json)} {name : String} {value : Json}
  {α β : Type} {read : Json → Except Fault α}

/-! ### Readers and doubles -/

/-- Whether values that are read are read as the same when their doubles are read anew. -/
def Rereads (read : Json → Except Fault α) : Prop :=
  ∀ value a, read value = .ok a → read value.reread = .ok a

/-- Whether values that are read are read still, perhaps as others, when their doubles are read
anew. -/
def KeepsReading (read : Json → Except Fault α) : Prop :=
  ∀ value, Succeeds (read value) → Succeeds (read value.reread)

theorem Rereads.keepsReading (h : Rereads read) : KeepsReading read :=
  fun value ⟨a, ha⟩ => ⟨a, h value a ha⟩

theorem Rereads.bind (h : Rereads read) (next : α → Except Fault β) :
    Rereads fun value => read value >>= next := by
  intro value b hb
  obtain ⟨a, ha, hb⟩ := bind_eq_ok.mp hb
  exact bind_eq_ok.mpr ⟨a, h value a ha, hb⟩

theorem rereads_asText : Rereads Json.asText := by
  intro value s h
  cases value with
  | text => exact h
  | _ => cases h

theorem rereads_asOptionalText : Rereads Json.asOptionalText := by
  intro value s h
  cases value with
  | null | text => exact h
  | _ => cases h

theorem rereads_choice [Choice α] : Rereads (Choice.read (α := α)) := by
  intro value a h
  cases value with
  | text => exact h
  | object fields =>
    match fields with
    | [(key, .null)] => exact h
    | [(key, .bool _)] | [(key, .number _)] | [(key, .text _)] | [(key, .list _)]
    | [(key, .object _)] =>
      obtain ⟨_, -, h⟩ := bind_eq_ok.mp h
      cases h
    | [] | _ :: _ :: _ => cases h
  | _ => cases h

theorem keepsReading_asSwitch : KeepsReading Json.asSwitch := by
  rintro value ⟨b, h⟩
  cases value with
  | null | bool | number => exact ⟨_, rfl⟩
  | _ => cases h

theorem KeepsReading.asListOf (h : KeepsReading read) : KeepsReading (Json.asListOf read) := by
  rintro value ⟨items, hitems⟩
  cases value with
  | list values =>
    obtain ⟨hvalues, -⟩ := of_mapM_eq_ok hitems
    rw [Json.reread, Json.rereadList_eq_map]
    exact Succeeds.mapM (List.forall_mem_map.mpr fun value hvalue => h value (hvalues value hvalue))
  | _ => cases hitems

namespace Column

theorem checked_eq_ok_iff : checked read value = .ok () ↔ Succeeds (read value) := by
  refine ⟨Layout.succeeds_of_checked, fun ⟨a, ha⟩ => ?_⟩
  rw [checked, ha]
  rfl

/-- Whether a column takes values still when their doubles are read anew. -/
def Steady (column : Column) : Prop :=
  ∀ value, column.check value = .ok () → column.check value.reread = .ok ()

theorem steady_checked (h : KeepsReading read) (value : Json)
    (hvalue : checked read value = .ok ()) : checked read value.reread = .ok () :=
  checked_eq_ok_iff.mpr (h value (checked_eq_ok_iff.mp hvalue))

theorem Steady.mandatory (name : String) (h : KeepsReading read) : (mandatory name read).Steady :=
  steady_checked h

theorem Steady.optional (name : String) (h : KeepsReading read) : (optional name read).Steady :=
  steady_checked h

end Column

namespace Layout

variable {layout : Layout}

def Steady (layout : Layout) : Prop := ∀ column ∈ layout.columns, column.Steady

theorem Steady.accepts (h : layout.Steady) (hvalue : layout.Accepts (name, value)) :
    layout.Accepts (name, value.reread) :=
  fun column hcolumn => h column (List.mem_of_find?_eq_some hcolumn) value (hvalue column hcolumn)

theorem rowOfItems_reread {columns : List Column} (h : ∀ column ∈ columns, column.Steady)
    {index : Nat} {values : List Json} (hread : layout.rowOfItems index columns values = .ok row) :
    layout.rowOfItems index columns (values.map Json.reread) = .ok (Json.rereadFields row) := by
  induction columns generalizing index values row with
  | nil =>
    cases values with
    | nil =>
      cases hread
      rfl
    | cons => cases hread
  | cons column rest ih =>
    obtain ⟨hcolumn, hrest⟩ := List.forall_mem_cons.mp h
    cases values with
    | nil =>
      unfold Layout.rowOfItems at hread
      split_ifs at hread with hrequired
      change layout.rowOfItems index (column :: rest) [] = _
      rw [Layout.rowOfItems, if_neg hrequired]
      exact ih hrest hread
    | cons value values =>
      obtain ⟨⟨⟩, hvalue, hread⟩ := bind_eq_ok.mp hread
      obtain ⟨others, hothers, hread⟩ := bind_eq_ok.mp hread
      cases hread
      exact bind_eq_ok.mpr ⟨(), hcolumn value hvalue, bind_eq_ok.mpr ⟨_, ih hrest hothers, rfl⟩⟩

/-- A value that stands for a row stands for the row with its doubles read anew. -/
theorem row_reread (h : layout.Steady) (hread : layout.row value = .ok row) :
    layout.row value.reread = .ok (Json.rereadFields row) := by
  cases value with
  | object fields =>
    cases of_row_object hread
    refine row_of_accepts ?_
    rw [Json.rereadFields_eq_map]
    exact List.forall_mem_map.mpr fun field hf => h.accepts (accepts_of_row hread field hf)
  | list items =>
    rw [Json.reread, Json.rereadList_eq_map]
    exact rowOfItems_reread h hread
  | _ => cases hread

end Layout

/-! ### Rows of which columns were set -/

namespace Record

/-- A row of which columns were set, as it is read when it was written. -/
def changed (fields : List (String × Json)) (row : Record) : Record :=
  Json.rereadFields (fields.foldl (fun row field => row.set field.1 field.2) row)

theorem get?_changed : (row.changed fields).get? name =
    ((lastOf? name fields).or (row.get? name)).map Json.reread := by
  rw [changed, get?_rereadFields, get?_foldl_set_eq]

variable {a : α} {set : Option α} {toJson : α → Json}

theorem required_eq_elim : row.required name read =
    (row.get? name).elim (.error (.missingField name)) read := by
  unfold required
  cases row.get? name <;> rfl

theorem optional_eq_elim : row.optional name a read = (row.get? name).elim (.ok a) read := by
  unfold optional
  cases row.get? name <;> rfl

/-- A column of a changed row is read as what it was set to, or else as before. -/
theorem elim_changed (hrereads : Rereads read) (hlast : lastOf? name fields = set.map toJson)
    (hset : ∀ a ∈ set, read (toJson a) = .ok a) {absent : Except Fault α}
    (h : (row.get? name).elim absent read = .ok a) :
    ((row.changed fields).get? name).elim absent read = .ok (set.getD a) := by
  rw [get?_changed, hlast]
  cases set with
  | some b => exact hrereads _ _ (hset b rfl)
  | none =>
    cases hvalue : row.get? name with
    | none => rwa [hvalue] at h
    | some value =>
      rw [hvalue] at h
      exact hrereads _ _ h

theorem required_changed (hrereads : Rereads read)
    (hlast : lastOf? name fields = set.map toJson) (hset : ∀ a ∈ set, read (toJson a) = .ok a)
    (h : row.required name read = .ok a) :
    (row.changed fields).required name read = .ok (set.getD a) := by
  rw [required_eq_elim] at h ⊢
  exact elim_changed hrereads hlast hset h

theorem optional_changed (hrereads : Rereads read)
    (hlast : lastOf? name fields = set.map toJson) (hset : ∀ a ∈ set, read (toJson a) = .ok a)
    {absent : α} (h : row.optional name absent read = .ok a) :
    (row.changed fields).optional name absent read = .ok (set.getD a) := by
  rw [optional_eq_elim] at h ⊢
  exact elim_changed hrereads hlast hset h

theorem required_set (hrereads : Rereads read) (hlast : lastOf? name fields = some value)
    (hread : read value = .ok a) : (row.changed fields).required name read = .ok a := by
  unfold required
  rw [get?_changed, hlast]
  exact hrereads value a hread

/-- A column that was not set is read as before. -/
theorem required_kept (hrereads : Rereads read) (hlast : lastOf? name fields = none)
    (h : row.required name read = .ok a) : (row.changed fields).required name read = .ok a := by
  have hnone : lastOf? name fields = (none : Option α).map fun _ => .null := hlast
  exact required_changed hrereads hnone (by simp) h

theorem required_reread (h : KeepsReading read) (hrow : Succeeds (row.required name read)) :
    Succeeds ((Json.rereadFields row).required name read) := by
  unfold required at hrow ⊢
  rw [get?_rereadFields]
  cases hvalue : row.get? name with
  | none =>
    rw [hvalue] at hrow
    exact hrow
  | some value =>
    rw [hvalue] at hrow
    exact h value hrow

theorem text_changed {s : String} {set : Option String} (hlast : lastOf? name fields = set.map .text)
    (h : row.required name Json.asText = .ok s) :
    (row.changed fields).required name Json.asText = .ok (set.getD s) :=
  required_changed rereads_asText hlast (fun _ _ => rfl) h

theorem optionalText_changed {s : Option String} {set : Option (Option String)}
    (hlast : lastOf? name fields = set.map .ofOptionalText)
    (h : row.optional name none Json.asOptionalText = .ok s) :
    (row.changed fields).optional name none Json.asOptionalText = .ok (set.getD s) :=
  optional_changed rereads_asOptionalText hlast (fun _ _ => asOptionalText_ofOptionalText _) h

theorem choice_changed [Choice α] [Named α]
    (hlast : lastOf? name fields = set.map (.text <| Choice.name ·))
    (h : row.required name Choice.read = .ok a) :
    (row.changed fields).required name Choice.read = .ok (set.getD a) :=
  required_changed rereads_choice hlast (fun _ _ => read_name _) h

end Record

theorem Layout.row_changed {layout : Layout} (h : layout.Steady)
    (hfields : ∀ field ∈ fields, layout.Accepts field)
    (hrow : layout.row (.object row) = .ok read') :
    layout.row (.object (row.changed fields)) = .ok (row.changed fields) := by
  have hset : ∀ field ∈ fields.foldl (fun row field => Record.set field.1 field.2 row) row,
      layout.Accepts field :=
    Record.foldl_set (fun name value => layout.Accepts (name, value)) (accepts_of_row hrow) hfields
  exact row_reread h (row_of_accepts hset)

/-! ### What patches assign -/

namespace Record

variable {column : String} {assigned : List (Option (String × Json))}

/-- What is assigned to a column may be nothing. -/
theorem lastOf?_cons_assigned (set : Option Json) :
    lastOf? name ((set.map (column, ·) :: assigned).filterMap id) =
      (lastOf? name (assigned.filterMap id)).or (if name = column then set else none) := by
  cases set with
  | none => simp
  | some value => simp [lastOf?_cons]

/-- Columns of which each is assigned what a function gives for it, if it gives anything. -/
theorem lastOf?_assigned (set? : String → Option Json) (columns : List String) :
    lastOf? name ((columns.map fun column => (set? column).map (column, ·)).filterMap id) =
      if name ∈ columns then set? name else none := by
  induction columns with
  | nil => rfl
  | cons column rest ih =>
    rw [List.map_cons, lastOf?_cons_assigned, ih]
    by_cases hname : name = column
    · subst hname
      rw [if_pos rfl, if_pos (List.mem_cons_self ..)]
      split_ifs
      · exact Option.or_self
      · exact Option.none_or
    · simp [hname]

/-- No column has anything that is not among those that are assigned. -/
theorem lastOf?_of_assigned {set? : String → Option Json} (columns : List String)
    (hcolumns : ∀ name, set? name ≠ none → name ∈ columns)
    (hassigned : assigned = columns.map fun column => (set? column).map (column, ·)) :
    lastOf? name (assigned.filterMap id) = set? name := by
  rw [hassigned, lastOf?_assigned, ite_eq_left_iff]
  exact fun hname => (not_imp_comm.mp (hcolumns name) hname).symm

/-- One more column is always assigned. -/
theorem lastOf?_of_assigned_append {set? : String → Option Json} {field : String × Json}
    (columns : List String) (hcolumns : ∀ name, set? name ≠ none → name ∈ columns)
    (hassigned : assigned ++ [some field] =
      columns.map fun column => (set? column).map (column, ·)) :
    lastOf? name (assigned.filterMap id ++ [field]) = set? name := by
  rw [← lastOf?_of_assigned columns hcolumns hassigned, List.filterMap_append]
  rfl

end Record

open Record

/-! ### Tasks -/

/-- What a patch of a task that is applied now sets a column to, if it sets it. -/
def TaskPatch.set? (patch : TaskPatch) (now column : String) : Option Json :=
  match column with
  | "title" => patch.title.map .text
  | "description" => patch.description.map .ofOptionalText
  | "priority" => patch.priority.map (.text <| Choice.name ·)
  | "status" => patch.status.map (.text <| Choice.name ·)
  | "due_date" => patch.dueDate.map .ofOptionalText
  | "updated_at" => some (.text now)
  | _ => none

theorem TaskPatch.lastOf?_assignments (patch : TaskPatch) (now column : String) :
    lastOf? column (patch.assignments ++ [("updated_at", .text now)]) = patch.set? now column := by
  refine lastOf?_of_assigned_append
    ["title", "description", "priority", "status", "due_date", "updated_at"] (fun name => ?_) ?_
  · unfold set?
    split <;> simp
  · simp [assign, set?, Function.comp_def]

/-- A task with what a patch names, changed now. -/
def TaskPatch.applied (patch : TaskPatch) (now : String) (task : Task) : Task :=
  { task with
    title := patch.title.getD task.title
    description := patch.description.getD task.description
    priority := patch.priority.getD task.priority
    status := patch.status.getD task.status
    dueDate := patch.dueDate.getD task.dueDate
    updatedAt := now }

theorem Subtask.steady_layout : Subtask.layout.Steady := by
  have hcompleted := keepsReading_asSwitch
  have htext := rereads_asText.keepsReading
  simp only [Layout.Steady, layout, List.forall_mem_cons]
  exact ⟨.mandatory _ htext, .mandatory _ htext, .mandatory _ htext, .mandatory _ hcompleted,
    .mandatory _ htext, by simp⟩

theorem Subtask.keepsReading_ofJson : KeepsReading Subtask.ofJson := by
  rintro value ⟨subtask, h⟩
  obtain ⟨row, hrow, h⟩ := bind_eq_ok.mp h
  obtain ⟨id, hid, h⟩ := bind_eq_ok.mp h
  obtain ⟨taskId, htaskId, h⟩ := bind_eq_ok.mp h
  obtain ⟨title, htitle, h⟩ := bind_eq_ok.mp h
  obtain ⟨completed, hcompleted, h⟩ := bind_eq_ok.mp h
  obtain ⟨createdAt, hcreatedAt, h⟩ := bind_eq_ok.mp h
  have htext := rereads_asText.keepsReading
  have hread : Succeeds (ofRow (Json.rereadFields row)) :=
    (required_reread htext ⟨_, hid⟩).bind fun _ => (required_reread htext ⟨_, htaskId⟩).bind fun _ =>
      (required_reread htext ⟨_, htitle⟩).bind fun _ =>
      (required_reread keepsReading_asSwitch ⟨_, hcompleted⟩).bind fun _ =>
      (required_reread htext ⟨_, hcreatedAt⟩).bind fun _ => .pure _
  obtain ⟨subtask, hsubtask⟩ := hread
  exact ⟨subtask, bind_eq_ok.mpr ⟨_, Layout.row_reread steady_layout hrow, hsubtask⟩⟩

theorem Task.steady_layout : Task.layout.Steady := by
  have htext := rereads_asText.keepsReading
  have hoptional := rereads_asOptionalText.keepsReading
  simp only [Layout.Steady, layout, List.forall_mem_cons]
  exact ⟨.mandatory _ htext, .mandatory _ htext, .optional _ hoptional,
    .mandatory _ rereads_choice.keepsReading, .mandatory _ rereads_choice.keepsReading,
    .optional _ hoptional, .mandatory _ htext, .mandatory _ htext,
    .optional _ Subtask.keepsReading_ofJson.asListOf, by simp⟩

theorem Task.ofJson_changed {task : Task} (h : ofJson (.object row) = .ok task)
    (patch : TaskPatch) (now : String) : ∃ subtasks,
      ofJson (.object (row.changed (patch.assignments ++ [("updated_at", .text now)]))) =
        .ok { patch.applied now task with subtasks } := by
  have haccepts := Layout.accepts_updatedAt now rfl (accepts_patch patch)
  have hset := patch.lastOf?_assignments now
  obtain ⟨read, hread, h⟩ := bind_eq_ok.mp h
  have hrow := Layout.row_changed steady_layout haccepts hread
  cases Layout.of_row_object hread
  obtain ⟨id, hid, h⟩ := bind_eq_ok.mp h
  obtain ⟨title, htitle, h⟩ := bind_eq_ok.mp h
  obtain ⟨description, hdescription, h⟩ := bind_eq_ok.mp h
  obtain ⟨priority, hpriority, h⟩ := bind_eq_ok.mp h
  obtain ⟨status, hstatus, h⟩ := bind_eq_ok.mp h
  obtain ⟨dueDate, hdueDate, h⟩ := bind_eq_ok.mp h
  obtain ⟨createdAt, hcreatedAt, h⟩ := bind_eq_ok.mp h
  obtain ⟨updatedAt, -, h⟩ := bind_eq_ok.mp h
  obtain ⟨_, -, h⟩ := bind_eq_ok.mp h
  cases h
  -- a column of subtasks can be read still, but its doubles may be others: the row alone does not say
  -- what the subtasks are
  obtain ⟨subtasks, hsubtasks⟩ := Layout.optional_of_accepts (Layout.accepts_of_row hrow) []
    (show layout.column? "subtasks" = some (.optional "subtasks" _) from rfl)
  refine ⟨subtasks, bind_eq_ok.mpr ⟨_, hrow, ?_⟩⟩
  refine bind_eq_ok.mpr ⟨_, required_kept rereads_asText (hset "id") hid, ?_⟩
  refine bind_eq_ok.mpr ⟨_, text_changed (hset "title") htitle, ?_⟩
  refine bind_eq_ok.mpr ⟨_, optionalText_changed (hset "description") hdescription, ?_⟩
  refine bind_eq_ok.mpr ⟨_, choice_changed (hset "priority") hpriority, ?_⟩
  refine bind_eq_ok.mpr ⟨_, choice_changed (hset "status") hstatus, ?_⟩
  refine bind_eq_ok.mpr ⟨_, optionalText_changed (hset "due_date") hdueDate, ?_⟩
  refine bind_eq_ok.mpr ⟨_, required_kept rereads_asText (hset "created_at") hcreatedAt, ?_⟩
  refine bind_eq_ok.mpr ⟨_, required_set rereads_asText (hset "updated_at") rfl, ?_⟩
  exact bind_eq_ok.mpr ⟨_, hsubtasks, rfl⟩

/-! ### Notes -/

/-- What a patch of a note that is applied now sets a column to, if it sets it. -/
def NotePatch.set? (patch : NotePatch) (now column : String) : Option Json :=
  match column with
  | "title" => patch.title.map .text
  | "content" => patch.content.map .text
  | "folder" => patch.folder.map .text
  | "tags" => patch.tags.map TextList.column
  | "updated_at" => some (.text now)
  | _ => none

theorem NotePatch.lastOf?_assignments (patch : NotePatch) (now column : String) :
    lastOf? column (patch.assignments ++ [("updated_at", .text now)]) = patch.set? now column := by
  refine lastOf?_of_assigned_append
    ["title", "content", "folder", "tags", "updated_at"] (fun name => ?_) ?_
  · unfold set?
    split <;> simp
  · simp [assign, set?, Function.comp_def]

/-- A note with what a patch names, changed now. -/
def NotePatch.applied (patch : NotePatch) (now : String) (note : Note) : Note :=
  { note with
    title := patch.title.getD note.title
    content := patch.content.getD note.content
    folder := patch.folder.getD note.folder
    tags := patch.tags.getD note.tags
    updatedAt := now }

namespace Note

theorem rereads_readContent : Rereads readContent := rereads_asOptionalText.bind _

theorem rereads_readFolder : Rereads readFolder := rereads_asOptionalText.bind _

theorem rereads_readTags : Rereads readTags := rereads_asOptionalText.bind _

theorem steady_layout : layout.Steady := by
  have htext := rereads_asText.keepsReading
  simp only [Layout.Steady, layout, List.forall_mem_cons]
  exact ⟨.mandatory _ htext, .mandatory _ htext, .optional _ rereads_readContent.keepsReading,
    .optional _ rereads_readFolder.keepsReading, .optional _ rereads_readTags.keepsReading,
    .mandatory _ htext, .mandatory _ htext, by simp⟩

theorem ofJson_changed {note : Note} (h : ofJson (.object row) = .ok note) {patch : NotePatch}
    (hfolder : ∀ folder ∈ patch.folder, folder ≠ "") (now : String) :
    ofJson (.object (row.changed (patch.assignments ++ [("updated_at", .text now)]))) =
      .ok (patch.applied now note) := by
  have haccepts := Layout.accepts_updatedAt now rfl (accepts_patch patch)
  have hset := patch.lastOf?_assignments now
  obtain ⟨read, hread, h⟩ := bind_eq_ok.mp h
  have hrow := Layout.row_changed steady_layout haccepts hread
  cases Layout.of_row_object hread
  obtain ⟨id, hid, h⟩ := bind_eq_ok.mp h
  obtain ⟨title, htitle, h⟩ := bind_eq_ok.mp h
  obtain ⟨content, hcontent, h⟩ := bind_eq_ok.mp h
  obtain ⟨folder, hfolder', h⟩ := bind_eq_ok.mp h
  obtain ⟨tags, htags, h⟩ := bind_eq_ok.mp h
  obtain ⟨createdAt, hcreatedAt, h⟩ := bind_eq_ok.mp h
  obtain ⟨updatedAt, -, h⟩ := bind_eq_ok.mp h
  cases h
  refine bind_eq_ok.mpr ⟨_, hrow, ?_⟩
  refine bind_eq_ok.mpr ⟨_, required_kept rereads_asText (hset "id") hid, ?_⟩
  refine bind_eq_ok.mpr ⟨_, text_changed (hset "title") htitle, ?_⟩
  refine bind_eq_ok.mpr ⟨_, optional_changed rereads_readContent (hset "content")
    (fun _ _ => rfl) hcontent, ?_⟩
  refine bind_eq_ok.mpr ⟨_, optional_changed rereads_readFolder (hset "folder")
    (fun folder h => readFolder_text (hfolder folder h)) hfolder', ?_⟩
  refine bind_eq_ok.mpr ⟨_, optional_changed rereads_readTags (hset "tags")
    (fun tags _ => readTags_column tags) htags, ?_⟩
  refine bind_eq_ok.mpr ⟨_, required_kept rereads_asText (hset "created_at") hcreatedAt, ?_⟩
  exact bind_eq_ok.mpr ⟨_, required_set rereads_asText (hset "updated_at") rfl, rfl⟩

end Note

/-! ### Events -/

/-- What a patch of an event that is applied now sets a column to, if it sets it. -/
def EventPatch.set? (patch : EventPatch) (now column : String) : Option Json :=
  match column with
  | "title" => patch.title.map .text
  | "description" => patch.description.map .ofOptionalText
  | "start_time" => patch.startTime.map .text
  | "end_time" => patch.endTime.map .ofOptionalText
  | "location" => patch.location.map .ofOptionalText
  | "color" => patch.color.map .text
  | "type" => patch.type.map (.text <| Choice.name ·)
  | "updated_at" => some (.text now)
  | _ => none

theorem EventPatch.lastOf?_assignments (patch : EventPatch) (now column : String) :
    lastOf? column (patch.assignments ++ [("updated_at", .text now)]) = patch.set? now column := by
  refine lastOf?_of_assigned_append
    ["title", "description", "start_time", "end_time", "location", "color", "type", "updated_at"]
    (fun name => ?_) ?_
  · unfold set?
    split <;> simp
  · simp [assign, set?, Function.comp_def]

/-- An event with what a patch names, changed now. -/
def EventPatch.applied (patch : EventPatch) (now : String) (event : Event) : Event :=
  { event with
    title := patch.title.getD event.title
    description := patch.description.getD event.description
    startTime := patch.startTime.getD event.startTime
    endTime := patch.endTime.getD event.endTime
    location := patch.location.getD event.location
    color := patch.color.getD event.color
    type := patch.type.getD event.type
    updatedAt := now }

namespace Event

theorem steady_layout : layout.Steady := by
  have htext := rereads_asText.keepsReading
  have hoptional := rereads_asOptionalText.keepsReading
  simp only [Layout.Steady, layout, List.forall_mem_cons]
  exact ⟨.mandatory _ htext, .mandatory _ htext, .optional _ hoptional, .mandatory _ htext,
    .optional _ hoptional, .optional _ hoptional, .mandatory _ htext,
    .mandatory _ rereads_choice.keepsReading, .mandatory _ htext, .mandatory _ htext, by simp⟩

theorem ofJson_changed {event : Event} (h : ofJson (.object row) = .ok event)
    (patch : EventPatch) (now : String) :
    ofJson (.object (row.changed (patch.assignments ++ [("updated_at", .text now)]))) =
      .ok (patch.applied now event) := by
  have haccepts := Layout.accepts_updatedAt now rfl (accepts_patch patch)
  have hset := patch.lastOf?_assignments now
  obtain ⟨read, hread, h⟩ := bind_eq_ok.mp h
  have hrow := Layout.row_changed steady_layout haccepts hread
  cases Layout.of_row_object hread
  obtain ⟨id, hid, h⟩ := bind_eq_ok.mp h
  obtain ⟨title, htitle, h⟩ := bind_eq_ok.mp h
  obtain ⟨description, hdescription, h⟩ := bind_eq_ok.mp h
  obtain ⟨startTime, hstartTime, h⟩ := bind_eq_ok.mp h
  obtain ⟨endTime, hendTime, h⟩ := bind_eq_ok.mp h
  obtain ⟨location, hlocation, h⟩ := bind_eq_ok.mp h
  obtain ⟨color, hcolor, h⟩ := bind_eq_ok.mp h
  obtain ⟨type, htype, h⟩ := bind_eq_ok.mp h
  obtain ⟨createdAt, hcreatedAt, h⟩ := bind_eq_ok.mp h
  obtain ⟨updatedAt, -, h⟩ := bind_eq_ok.mp h
  cases h
  refine bind_eq_ok.mpr ⟨_, hrow, ?_⟩
  refine bind_eq_ok.mpr ⟨_, required_kept rereads_asText (hset "id") hid, ?_⟩
  refine bind_eq_ok.mpr ⟨_, text_changed (hset "title") htitle, ?_⟩
  refine bind_eq_ok.mpr ⟨_, optionalText_changed (hset "description") hdescription, ?_⟩
  refine bind_eq_ok.mpr ⟨_, text_changed (hset "start_time") hstartTime, ?_⟩
  refine bind_eq_ok.mpr ⟨_, optionalText_changed (hset "end_time") hendTime, ?_⟩
  refine bind_eq_ok.mpr ⟨_, optionalText_changed (hset "location") hlocation, ?_⟩
  refine bind_eq_ok.mpr ⟨_, text_changed (hset "color") hcolor, ?_⟩
  refine bind_eq_ok.mpr ⟨_, choice_changed (hset "type") htype, ?_⟩
  refine bind_eq_ok.mpr ⟨_, required_kept rereads_asText (hset "created_at") hcreatedAt, ?_⟩
  exact bind_eq_ok.mpr ⟨_, required_set rereads_asText (hset "updated_at") rfl, rfl⟩

end Event

/-! ### Habits -/

/-- What a patch of a habit sets a column to, if it sets it. -/
def HabitPatch.set? (patch : HabitPatch) (column : String) : Option Json :=
  match column with
  | "name" => patch.name.map .text
  | "frequency" => patch.frequency.map (.text <| Choice.name ·)
  | "color" => patch.color.map .text
  | _ => none

theorem HabitPatch.lastOf?_assignments (patch : HabitPatch) (column : String) :
    lastOf? column patch.assignments = patch.set? column := by
  refine lastOf?_of_assigned ["name", "frequency", "color"] (fun name => ?_) ?_
  · unfold set?
    split <;> simp
  · simp [assign, set?, Function.comp_def]

/-- A habit with what a patch names. -/
def HabitPatch.applied (patch : HabitPatch) (habit : Habit) : Habit :=
  { habit with
    name := patch.name.getD habit.name
    frequency := patch.frequency.getD habit.frequency
    color := patch.color.getD habit.color }

theorem HabitPatch.applied_of_nil {patch : HabitPatch} (h : patch.assignments = [])
    (habit : Habit) : patch.applied habit = habit := by
  have hnone : ∀ column, patch.set? column = none := fun column => by
    rw [← lastOf?_assignments, h, lastOf?_nil]
  have hname : patch.name = none := Option.map_eq_none_iff.mp (hnone "name")
  have hfrequency : patch.frequency = none := Option.map_eq_none_iff.mp (hnone "frequency")
  have hcolor : patch.color = none := Option.map_eq_none_iff.mp (hnone "color")
  simp only [applied, hname, hfrequency, hcolor, Option.getD_none]

namespace Habit

theorem steady_layout : layout.Steady := by
  have htext := rereads_asText.keepsReading
  simp only [Layout.Steady, layout, List.forall_mem_cons]
  exact ⟨.mandatory _ htext, .mandatory _ htext, .mandatory _ rereads_choice.keepsReading,
    .mandatory _ htext, .mandatory _ htext, by simp⟩

theorem ofJson_changed {habit : Habit} (h : ofJson (.object row) = .ok habit)
    (patch : HabitPatch) :
    ofJson (.object (row.changed patch.assignments)) = .ok (patch.applied habit) := by
  have hset := patch.lastOf?_assignments
  obtain ⟨read, hread, h⟩ := bind_eq_ok.mp h
  have hrow := Layout.row_changed steady_layout (accepts_patch patch) hread
  cases Layout.of_row_object hread
  obtain ⟨id, hid, h⟩ := bind_eq_ok.mp h
  obtain ⟨name, hname, h⟩ := bind_eq_ok.mp h
  obtain ⟨frequency, hfrequency, h⟩ := bind_eq_ok.mp h
  obtain ⟨color, hcolor, h⟩ := bind_eq_ok.mp h
  obtain ⟨createdAt, hcreatedAt, h⟩ := bind_eq_ok.mp h
  cases h
  refine bind_eq_ok.mpr ⟨_, hrow, ?_⟩
  refine bind_eq_ok.mpr ⟨_, required_kept rereads_asText (hset "id") hid, ?_⟩
  refine bind_eq_ok.mpr ⟨_, text_changed (hset "name") hname, ?_⟩
  refine bind_eq_ok.mpr ⟨_, choice_changed (hset "frequency") hfrequency, ?_⟩
  refine bind_eq_ok.mpr ⟨_, text_changed (hset "color") hcolor, ?_⟩
  exact bind_eq_ok.mpr ⟨_, required_kept rereads_asText (hset "created_at") hcreatedAt, rfl⟩

end Habit

/-! ### Routines -/

/-- What a patch of a routine sets a column to, if it sets it. -/
def RoutinePatch.set? (patch : RoutinePatch) (column : String) : Option Json :=
  match column with
  | "title" => patch.title.map .text
  | "start_time" => patch.startTime.map .text
  | "end_time" => patch.endTime.map .text
  | "days" => patch.days.map TextList.column
  | "color" => patch.color.map .text
  | "category" => patch.category.map .text
  | _ => none

theorem RoutinePatch.lastOf?_assignments (patch : RoutinePatch) (column : String) :
    lastOf? column patch.assignments = patch.set? column := by
  refine lastOf?_of_assigned
    ["title", "start_time", "end_time", "days", "color", "category"] (fun name => ?_) ?_
  · unfold set?
    split <;> simp
  · simp [assign, set?, Function.comp_def]

/-- A routine with what a patch names. -/
def RoutinePatch.applied (patch : RoutinePatch) (routine : Routine) : Routine :=
  { routine with
    title := patch.title.getD routine.title
    startTime := patch.startTime.getD routine.startTime
    endTime := patch.endTime.getD routine.endTime
    days := patch.days.getD routine.days
    color := patch.color.getD routine.color
    category := patch.category.getD routine.category }

theorem RoutinePatch.applied_of_nil {patch : RoutinePatch} (h : patch.assignments = [])
    (routine : Routine) : patch.applied routine = routine := by
  have hnone : ∀ column, patch.set? column = none := fun column => by
    rw [← lastOf?_assignments, h, lastOf?_nil]
  have htitle : patch.title = none := Option.map_eq_none_iff.mp (hnone "title")
  have hstartTime : patch.startTime = none := Option.map_eq_none_iff.mp (hnone "start_time")
  have hendTime : patch.endTime = none := Option.map_eq_none_iff.mp (hnone "end_time")
  have hdays : patch.days = none := Option.map_eq_none_iff.mp (hnone "days")
  have hcolor : patch.color = none := Option.map_eq_none_iff.mp (hnone "color")
  have hcategory : patch.category = none := Option.map_eq_none_iff.mp (hnone "category")
  simp only [applied, htitle, hstartTime, hendTime, hdays, hcolor, hcategory, Option.getD_none]

namespace Routine

theorem rereads_readDays : Rereads readDays := rereads_asText.bind _

theorem steady_layout : layout.Steady := by
  have htext := rereads_asText.keepsReading
  simp only [Layout.Steady, layout, List.forall_mem_cons]
  exact ⟨.mandatory _ htext, .mandatory _ htext, .mandatory _ htext, .mandatory _ htext,
    .mandatory _ rereads_readDays.keepsReading, .mandatory _ htext, .mandatory _ htext,
    .mandatory _ htext, by simp⟩

theorem ofJson_changed {routine : Routine} (h : ofJson (.object row) = .ok routine)
    (patch : RoutinePatch) :
    ofJson (.object (row.changed patch.assignments)) = .ok (patch.applied routine) := by
  have hset := patch.lastOf?_assignments
  obtain ⟨read, hread, h⟩ := bind_eq_ok.mp h
  have hrow := Layout.row_changed steady_layout (accepts_patch patch) hread
  cases Layout.of_row_object hread
  obtain ⟨id, hid, h⟩ := bind_eq_ok.mp h
  obtain ⟨title, htitle, h⟩ := bind_eq_ok.mp h
  obtain ⟨startTime, hstartTime, h⟩ := bind_eq_ok.mp h
  obtain ⟨endTime, hendTime, h⟩ := bind_eq_ok.mp h
  obtain ⟨days, hdays, h⟩ := bind_eq_ok.mp h
  obtain ⟨color, hcolor, h⟩ := bind_eq_ok.mp h
  obtain ⟨category, hcategory, h⟩ := bind_eq_ok.mp h
  obtain ⟨createdAt, hcreatedAt, h⟩ := bind_eq_ok.mp h
  cases h
  refine bind_eq_ok.mpr ⟨_, hrow, ?_⟩
  refine bind_eq_ok.mpr ⟨_, required_kept rereads_asText (hset "id") hid, ?_⟩
  refine bind_eq_ok.mpr ⟨_, text_changed (hset "title") htitle, ?_⟩
  refine bind_eq_ok.mpr ⟨_, text_changed (hset "start_time") hstartTime, ?_⟩
  refine bind_eq_ok.mpr ⟨_, text_changed (hset "end_time") hendTime, ?_⟩
  refine bind_eq_ok.mpr ⟨_, required_changed rereads_readDays (hset "days")
    (fun days _ => readDays_column days) hdays, ?_⟩
  refine bind_eq_ok.mpr ⟨_, text_changed (hset "color") hcolor, ?_⟩
  refine bind_eq_ok.mpr ⟨_, text_changed (hset "category") hcategory, ?_⟩
  exact bind_eq_ok.mpr ⟨_, required_kept rereads_asText (hset "created_at") hcreatedAt, rfl⟩

end Routine

end Planner

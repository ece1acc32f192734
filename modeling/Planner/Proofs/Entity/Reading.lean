import Planner.Entity.Event
import Planner.Entity.Habit
import Planner.Entity.Note
import Planner.Entity.Task
import Planner.Proofs.Outcome

/-! What is known of the columns of a row that was read as an entity. -/
namespace Planner

open Json (Fault)
open Outcome

variable {row : Record} {name : String}

theorem Record.required_asText_iff {s : String} :
    row.required name Json.asText = .ok s ↔ row.get? name = some (.text s) := by
  unfold required
  cases hvalue : row.get? name with
  | none => simp
  | some value => cases value <;> simp [Json.asText]

/-- A text that may be missing or null. -/
theorem Record.optional_asOptionalText_iff {s : Option String} :
    row.optional name none Json.asOptionalText = .ok s ↔
      (row.get? name).getD .null = .ofOptionalText s := by
  unfold optional
  cases hvalue : row.get? name with
  | none => cases s <;> simp [Json.ofOptionalText]
  | some value =>
    cases value <;> cases s <;>
      simp [Json.asOptionalText, Json.asText, Json.ofOptionalText, bind, Except.bind, pure,
        Except.pure]

/-- A value other than an object that names a member is the text of its name. -/
theorem Choice.eq_text_name {α : Type} [Choice α] {value : Json} {a : α} (hdepth : value.depth = 0)
    (h : Choice.read value = .ok a) : value = .text (Choice.name a) := by
  cases value with
  | text s =>
    have hname : Choice.ofName? s = some a := by
      simp only [Choice.read, Choice.ofName] at h
      cases hfound : Choice.ofName? (α := α) s <;> rw [hfound] at h <;> cases h
      rfl
    have hsame := List.find?_some hname
    rw [of_decide_eq_true hsame]
  | object fields => cases hdepth
  | _ => cases h

/-- A value that is read as an object is the row of the object. -/
theorem Layout.of_row_object {layout : Layout} {read : Record}
    (h : layout.row (.object row) = .ok read) : read = row := by
  obtain ⟨⟨⟩, -, hsame⟩ := bind_eq_ok.mp h
  cases hsame
  rfl

/-! ### Tasks -/

/-- Whether the columns of a row are read as those of a task. -/
structure Task.ReadFrom (row : Record) (task : Task) : Prop where
  id : row.get? "id" = some (.text task.id)
  title : row.get? "title" = some (.text task.title)
  description : (row.get? "description").getD .null = .ofOptionalText task.description
  priority : row.required "priority" Choice.read = .ok task.priority
  status : row.required "status" Choice.read = .ok task.status
  dueDate : (row.get? "due_date").getD .null = .ofOptionalText task.dueDate
  createdAt : row.get? "created_at" = some (.text task.createdAt)
  updatedAt : row.get? "updated_at" = some (.text task.updatedAt)

theorem Task.readFrom {task : Task} (h : Task.ofJson (.object row) = .ok task) :
    task.ReadFrom row := by
  obtain ⟨read, hread, h⟩ := bind_eq_ok.mp h
  cases Layout.of_row_object hread
  obtain ⟨id, hid, h⟩ := bind_eq_ok.mp h
  obtain ⟨title, htitle, h⟩ := bind_eq_ok.mp h
  obtain ⟨description, hdescription, h⟩ := bind_eq_ok.mp h
  obtain ⟨priority, hpriority, h⟩ := bind_eq_ok.mp h
  obtain ⟨status, hstatus, h⟩ := bind_eq_ok.mp h
  obtain ⟨dueDate, hdueDate, h⟩ := bind_eq_ok.mp h
  obtain ⟨createdAt, hcreatedAt, h⟩ := bind_eq_ok.mp h
  obtain ⟨updatedAt, hupdatedAt, h⟩ := bind_eq_ok.mp h
  obtain ⟨subtasks, -, h⟩ := bind_eq_ok.mp h
  cases h
  exact ⟨Record.required_asText_iff.mp hid, Record.required_asText_iff.mp htitle,
    Record.optional_asOptionalText_iff.mp hdescription, hpriority, hstatus,
    Record.optional_asOptionalText_iff.mp hdueDate, Record.required_asText_iff.mp hcreatedAt,
    Record.required_asText_iff.mp hupdatedAt⟩

/-! ### Events -/

/-- Whether the columns of a row are read as those of an event. -/
structure Event.ReadFrom (row : Record) (event : Event) : Prop where
  id : row.get? "id" = some (.text event.id)
  title : row.get? "title" = some (.text event.title)
  description : (row.get? "description").getD .null = .ofOptionalText event.description
  startTime : row.get? "start_time" = some (.text event.startTime)
  endTime : (row.get? "end_time").getD .null = .ofOptionalText event.endTime
  location : (row.get? "location").getD .null = .ofOptionalText event.location
  color : row.get? "color" = some (.text event.color)
  type : row.required "type" Choice.read = .ok event.type
  createdAt : row.get? "created_at" = some (.text event.createdAt)
  updatedAt : row.get? "updated_at" = some (.text event.updatedAt)

theorem Event.readFrom {event : Event} (h : Event.ofJson (.object row) = .ok event) :
    event.ReadFrom row := by
  obtain ⟨read, hread, h⟩ := bind_eq_ok.mp h
  cases Layout.of_row_object hread
  obtain ⟨id, hid, h⟩ := bind_eq_ok.mp h
  obtain ⟨title, htitle, h⟩ := bind_eq_ok.mp h
  obtain ⟨description, hdescription, h⟩ := bind_eq_ok.mp h
  obtain ⟨startTime, hstartTime, h⟩ := bind_eq_ok.mp h
  obtain ⟨endTime, hendTime, h⟩ := bind_eq_ok.mp h
  obtain ⟨location, hlocation, h⟩ := bind_eq_ok.mp h
  obtain ⟨color, hcolor, h⟩ := bind_eq_ok.mp h
  obtain ⟨type, htype, h⟩ := bind_eq_ok.mp h
  obtain ⟨createdAt, hcreatedAt, h⟩ := bind_eq_ok.mp h
  obtain ⟨updatedAt, hupdatedAt, h⟩ := bind_eq_ok.mp h
  cases h
  exact ⟨Record.required_asText_iff.mp hid, Record.required_asText_iff.mp htitle,
    Record.optional_asOptionalText_iff.mp hdescription, Record.required_asText_iff.mp hstartTime,
    Record.optional_asOptionalText_iff.mp hendTime, Record.optional_asOptionalText_iff.mp hlocation,
    Record.required_asText_iff.mp hcolor, htype, Record.required_asText_iff.mp hcreatedAt,
    Record.required_asText_iff.mp hupdatedAt⟩

/-! ### Entries of the log -/

/-- Whether the columns of a row are read as those of an entry of the log. -/
structure HabitLog.ReadFrom (row : Record) (log : HabitLog) : Prop where
  id : row.get? "id" = some (.text log.id)
  habitId : row.get? "habit_id" = some (.text log.habitId)
  date : row.get? "date" = some (.text log.date)
  completed : row.required "completed" Json.asSwitch = .ok log.completed

theorem HabitLog.readFrom {log : HabitLog} (h : HabitLog.ofJson (.object row) = .ok log) :
    log.ReadFrom row := by
  obtain ⟨read, hread, h⟩ := bind_eq_ok.mp h
  cases Layout.of_row_object hread
  obtain ⟨id, hid, h⟩ := bind_eq_ok.mp h
  obtain ⟨habitId, hhabitId, h⟩ := bind_eq_ok.mp h
  obtain ⟨date, hdate, h⟩ := bind_eq_ok.mp h
  obtain ⟨completed, hcompleted, h⟩ := bind_eq_ok.mp h
  cases h
  exact ⟨Record.required_asText_iff.mp hid, Record.required_asText_iff.mp hhabitId,
    Record.required_asText_iff.mp hdate, hcompleted⟩

/-! ### Notes -/

/-- Whether the columns of a row are read as those of a note. -/
structure Note.ReadFrom (row : Record) (note : Note) : Prop where
  id : row.get? "id" = some (.text note.id)
  title : row.get? "title" = some (.text note.title)
  content : row.optional "content" "" readContent = .ok note.content
  folder : row.optional "folder" defaultFolder readFolder = .ok note.folder
  tags : row.optional "tags" [] readTags = .ok note.tags
  createdAt : row.get? "created_at" = some (.text note.createdAt)
  updatedAt : row.get? "updated_at" = some (.text note.updatedAt)

theorem Note.readFrom {note : Note} (h : Note.ofJson (.object row) = .ok note) :
    note.ReadFrom row := by
  obtain ⟨read, hread, h⟩ := bind_eq_ok.mp h
  cases Layout.of_row_object hread
  obtain ⟨id, hid, h⟩ := bind_eq_ok.mp h
  obtain ⟨title, htitle, h⟩ := bind_eq_ok.mp h
  obtain ⟨content, hcontent, h⟩ := bind_eq_ok.mp h
  obtain ⟨folder, hfolder, h⟩ := bind_eq_ok.mp h
  obtain ⟨tags, htags, h⟩ := bind_eq_ok.mp h
  obtain ⟨createdAt, hcreatedAt, h⟩ := bind_eq_ok.mp h
  obtain ⟨updatedAt, hupdatedAt, h⟩ := bind_eq_ok.mp h
  cases h
  exact ⟨Record.required_asText_iff.mp hid, Record.required_asText_iff.mp htitle, hcontent, hfolder,
    htags, Record.required_asText_iff.mp hcreatedAt, Record.required_asText_iff.mp hupdatedAt⟩

end Planner

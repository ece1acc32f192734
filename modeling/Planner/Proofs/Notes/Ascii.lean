import Planner.Proofs.Entity.Reading
import Planner.Proofs.Legible
import Planner.Proofs.Notes.Tags

/-! Notes whose title, content and tags are ASCII, as runs of operations with such texts leave them:
each row has these columns, and the tags as they are written. -/
namespace Planner

open Outcome Workspace
open Text (IsAscii)

variable {text : String} {tags : List String}

namespace Note

variable {row : Record} {note : Note} {fields : List (String × Json)}

/-- Whether a column of a note, if it is one of those that are searched, has what is written there when
all texts are ASCII. -/
def AsciiField (field : String × Json) : Prop :=
  (field.1 = "title" ∨ field.1 = "content" →
    ∃ text : String, IsAscii text.toList ∧ field.2 = .text text) ∧
  (field.1 = "tags" → ∃ tags : List String, (∀ tag ∈ tags, IsAscii tag.toList) ∧
    field.2 = TextList.column tags)

/-- A row of a note whose texts are ASCII and whose tags are stored as tags are written. -/
structure AsciiRow (row : Record) : Prop where
  fields : ∀ field ∈ row, AsciiField field
  complete : ∀ name ∈ ["title", "content", "tags"], row.has name = true

/-- A note whose title, content and tags are ASCII. -/
structure Ascii (note : Note) : Prop where
  title : IsAscii note.title.toList
  content : IsAscii note.content.toList
  tags : ∀ tag ∈ note.tags, IsAscii tag.toList

theorem AsciiRow.foldl_set (h : AsciiRow row) (hfields : ∀ field ∈ fields, AsciiField field) :
    AsciiRow (fields.foldl (fun row field => row.set field.1 field.2) row) where
  fields := Record.foldl_set (fun name value => AsciiField (name, value)) h.fields hfields
  complete name hname := Record.has_foldl_set.mpr (.inl (h.complete name hname))

theorem asciiField_of_ne {name : String} {value : Json} (hname : name ∉ ["title", "content", "tags"]) :
    AsciiField (name, value) := by
  simp only [List.mem_cons, List.not_mem_nil, or_false, not_or] at hname
  exact ⟨fun h => (h.elim hname.1 hname.2.1).elim, fun h => absurd h hname.2.2⟩

theorem asciiField_text {name : String} (hname : name ≠ "tags") (h : IsAscii text.toList) :
    AsciiField (name, .text text) := ⟨fun _ => ⟨text, h, rfl⟩, fun h => absurd h hname⟩

theorem asciiField_tags (h : ∀ tag ∈ tags, IsAscii tag.toList) :
    AsciiField ("tags", TextList.column tags) :=
  ⟨fun hname => hname.elim (absurd · (by simp)) (absurd · (by simp)), fun _ => ⟨tags, h, rfl⟩⟩

theorem Ascii.asciiRow_columns (h : note.Ascii) : AsciiRow (.ofFields note.columns) := by
  refine ⟨Record.foldl_set (fun name value => AsciiField (name, value)) (by simp) ?_, ?_⟩
  · simp only [columns, List.forall_mem_cons]
    exact ⟨asciiField_of_ne (by decide), asciiField_text (by decide) h.title,
      asciiField_text (by decide) h.content, asciiField_of_ne (by decide), asciiField_tags h.tags,
      asciiField_of_ne (by decide), asciiField_of_ne (by decide), by simp⟩
  · intro name hname
    refine Record.has_foldl_set.mpr (.inr ?_)
    simp only [List.mem_cons, List.not_mem_nil, or_false] at hname
    rcases hname with rfl | rfl | rfl <;> simp [columns]

theorem get?_columns (n : Note) : (Record.ofFields n.columns).get? "title" = some (.text n.title) ∧
    (Record.ofFields n.columns).get? "content" = some (.text n.content) ∧
      (Record.ofFields n.columns).get? "tags" = some (TextList.column n.tags) := by
  simp [columns, Record.ofFields, Record.get?_set_self, Record.get?_set_ne]

/-- A note has the texts of the columns that it is read from. -/
theorem ReadFrom.eq_of_get? {title content : String} (h : note.ReadFrom row)
    (htitle : row.get? "title" = some (.text title))
    (hcontent : row.get? "content" = some (.text content))
    (htags : row.get? "tags" = some (TextList.column tags)) :
    title = note.title ∧ content = note.content ∧ tags = note.tags := by
  have hread := h.content
  have hread' := h.tags
  rw [Record.optional, hcontent] at hread
  rw [Record.optional, htags] at hread'
  refine ⟨?_, Except.ok.inj hread, ?_⟩
  · simpa using htitle.symm.trans h.title
  · exact Except.ok.inj ((readTags_column tags).symm.trans hread')

/-- What is read from such a row is what is searched there. -/
theorem AsciiRow.of_readFrom (h : AsciiRow row) (hnote : note.ReadFrom row) : note.Ascii ∧
    row.get? "title" = some (.text note.title) ∧ row.get? "content" = some (.text note.content) ∧
      row.get? "tags" = some (TextList.column note.tags) := by
  have hfield : ∀ name ∈ ["title", "content", "tags"], ∃ value, row.get? name = some value ∧
      AsciiField (name, value) := by
    intro name hname
    obtain ⟨value, hvalue⟩ := Option.isSome_iff_exists.mp (h.complete name hname)
    exact ⟨value, hvalue, h.fields _ (Record.mem_of_get? hvalue)⟩
  simp only [List.forall_mem_cons] at hfield
  obtain ⟨⟨title, htitle, hfield⟩, ⟨content, hcontent, hfield'⟩, ⟨column, htags, hfield''⟩, -⟩ := hfield
  obtain ⟨title, hasciiTitle, rfl⟩ := hfield.1 (.inl rfl)
  obtain ⟨content, hasciiContent, rfl⟩ := hfield'.1 (.inr rfl)
  obtain ⟨tags, hasciiTags, rfl⟩ := hfield''.2 rfl
  obtain ⟨rfl, rfl, rfl⟩ := hnote.eq_of_get? htitle hcontent htags
  exact ⟨⟨hasciiTitle, hasciiContent, hasciiTags⟩, htitle, hcontent, htags⟩

end Note

/-! ### Runs in ASCII -/

namespace Operation

variable {operation : Operation} {statement : Statement} {w : Workspace}
  {content : Table → List Record}

/-- Whether the texts that an operation writes to notes, folders apart, are ASCII. -/
def WritesAscii : Operation → Prop
  | createNote new => IsAscii new.title.toList ∧ IsAscii new.content.toList ∧
    ∀ tag ∈ new.tags, IsAscii tag.toList
  | updateNote _ patch => (∀ title ∈ patch.title, IsAscii title.toList) ∧
    (∀ content ∈ patch.content, IsAscii content.toList) ∧
      ∀ tags ∈ patch.tags, ∀ tag ∈ tags, IsAscii tag.toList
  | _ => True

theorem asciiField_of_patch {id : String} {patch : NotePatch}
    (h : (updateNote id patch).WritesAscii) : ∀ field ∈ patch.assignments, Note.AsciiField field := by
  obtain ⟨htitle, hcontent, htags⟩ := h
  intro field hf
  obtain ⟨field?, hmem, hsome⟩ := List.mem_filterMap.mp hf
  simp only [List.mem_cons, List.not_mem_nil, or_false] at hmem
  rcases hmem with rfl | rfl | rfl | rfl <;>
    obtain ⟨value, hvalue, rfl⟩ := Option.map_eq_some_iff.mp hsome
  · exact Note.asciiField_text (by decide) (htitle value hvalue)
  · exact Note.asciiField_text (by decide) (hcontent value hvalue)
  · exact Note.asciiField_of_ne (by decide)
  · exact Note.asciiField_tags (htags value hvalue)

/-- The rows of notes that an operation brings in or changes are ASCII, if it is none that creates a
note. -/
theorem brings_asciiRow (h : operation.Issues statement) (hrestores : ¬ operation.Restores)
    (hascii : operation.WritesAscii) (hcreates : ∀ new, operation ≠ .createNote new)
    (htable : statement.table = .notes) : statement.Brings Note.AsciiRow := by
  cases operation with
  | createNote new => exact absurd rfl (hcreates new)
  | updateNote id patch =>
    obtain ⟨now, rfl⟩ := h
    refine fun row hrow => hrow.foldl_set (List.forall_mem_append.mpr ?_)
    exact ⟨asciiField_of_patch hascii,
      List.forall_mem_singleton.mpr (Note.asciiField_of_ne (by decide))⟩
  | deleteNote id =>
    subst h
    trivial
  | createTask | createEvent | createHabit | createRoutine =>
    obtain ⟨entity, rfl⟩ := h
    cases htable
  | addSubtask | logHabit =>
    obtain ⟨entity, -, rfl⟩ := h
    cases htable
  | updateTask | updateEvent =>
    obtain ⟨now, rfl⟩ := h
    cases htable
  | deleteTask | deleteHabit => rcases h with rfl | rfl <;> cases htable
  | updateHabit | updateRoutine | setSubtaskCompleted | deleteSubtask | deleteEvent | deleteRoutine
  | setSetting =>
    subst h
    cases htable
  | restore | restoreText => exact absurd trivial hrestores

theorem bringsKeysApart (hrestores : ¬ operation.Restores) : operation.BringsKeysApart := by
  cases operation with
  | restore | restoreText => exact absurd trivial hrestores
  | _ => trivial

/-- The statements of an operation that bring in notes, if they do, with ASCII texts only. -/
def IssuesAscii (operation : Operation) (statement : Statement) : Prop :=
  operation.Issues statement ∧ (statement.table = .notes → statement.Brings Note.AsciiRow)

/-- A note that is created has the texts that it is created with. -/
theorem reaches_ascii (hrestores : ¬ operation.Restores) (hascii : operation.WritesAscii)
    (w : Workspace) : w.store.Reaches operation.IssuesAscii (operation.on w).store := by
  by_cases hcreates : ∃ new, operation = .createNote new
  · obtain ⟨new, rfl⟩ := hcreates
    obtain ⟨htitle, hcontent, htags⟩ := hascii
    have hcolumns : ∀ note : Note, note.title = new.title → note.content = new.content →
        note.tags = new.tags → (createNote new).IssuesAscii (.insertFields .notes note.columns .append) :=
      fun note ht hc hg => ⟨⟨note, rfl⟩, fun _ => Statement.brings_insertFields
        (Note.Ascii.asciiRow_columns ⟨ht ▸ htitle, hc ▸ hcontent, hg ▸ htags⟩)⟩
    exact (reached_timestamp.bind fun _ => reached_newId.bind fun _ =>
      (reached_append (hcolumns _ rfl rfl rfl)).bind fun _ => .pure _) w .refl
  · push Not at hcreates
    exact (reaches_on operation w).mono fun statement h =>
      ⟨h, brings_asciiRow h hrestores hascii hcreates⟩

/-- An operation that writes ASCII leaves the rows of the notes in ASCII. -/
theorem asciiRows_on (hrestores : ¬ operation.Restores) (hascii : operation.WritesAscii)
    (h : w.store.HoldsPlain content) (hrows : ∀ row ∈ content .notes, Note.AsciiRow row) :
    ∃ content, (operation.on w).store.HoldsPlain content ∧
      ∀ row ∈ content .notes, Note.AsciiRow row := by
  refine (reaches_ascii hrestores hascii w).holdsPlain
    (J := fun content => ∀ row ∈ content .notes, Note.AsciiRow row)
    (fun _ hissues => plain_of_issues hissues.1 hrestores) ?_ ⟨content, h, hrows⟩
  rintro statement content ⟨-, hbrings⟩ hrows
  by_cases htable : statement.table = .notes
  · have hself : statement.after content .notes = statement.rowsAfter (content .notes) := by
      rw [← htable]
      exact Statement.after_self
    rw [hself]
    exact Statement.forall_rowsAfter (hbrings htable) hrows
  · rwa [Statement.after_ne (Ne.symm htable)]

end Operation

theorem asciiRows_afterTurns {turns : List Turn} {w : Workspace} {content : Table → List Record}
    (hrestores : ∀ turn ∈ turns, ¬ turn.operation.Restores)
    (hascii : ∀ turn ∈ turns, turn.operation.WritesAscii) (h : w.store.HoldsPlain content)
    (hrows : ∀ row ∈ content .notes, Note.AsciiRow row) :
    ∃ content, (afterTurns turns w).store.HoldsPlain content ∧
      ∀ row ∈ content .notes, Note.AsciiRow row := by
  induction turns generalizing w content with
  | nil => exact ⟨content, h, hrows⟩
  | cons first rest ih =>
    obtain ⟨hfirst, hrest⟩ := List.forall_mem_cons.mp hrestores
    obtain ⟨hwrites, hothers⟩ := List.forall_mem_cons.mp hascii
    obtain ⟨content', h', hrows'⟩ :=
      Operation.asciiRows_on (w := first.start w) hfirst hwrites h hrows
    exact ih hrest hothers h' hrows'

end Planner

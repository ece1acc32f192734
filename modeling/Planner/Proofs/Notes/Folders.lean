import Planner.Notes
import Planner.Proofs.Entity.Reading
import Planner.Proofs.Legible

/-! The folders of the notes, as they are stored and as the notes show them. A row without a folder is
shown in the default one, but a folder is looked for as it is stored; the two agree for all other
rows and folders. -/
namespace Planner

open Outcome Select
open CommandLine (fresh)

namespace Json

/-- The text that a value is, if it is one. -/
def text? : Json → Option String
  | .text s => some s
  | _ => none

theorem text?_eq_some_iff {v : Json} {s : String} : v.text? = some s ↔ v = .text s := by
  cases v <;> simp [text?]

end Json

/-- Whether a row names no folder: the column is missing, null or the empty text. -/
def Record.Unfiled (row : Record) : Prop :=
  row.get? "folder" = none ∨ row.get? "folder" = some .null ∨ row.get? "folder" = some (.text "")

theorem Record.Unfiled.eq_empty {row : Record} {name : String} (h : row.Unfiled)
    (hstored : row.get? "folder" = some (.text name)) : name = "" := by
  rcases h with h | h | h <;> rw [h] at hstored <;> cases hstored
  rfl

namespace Notes

variable {store : Store} {rows : List Record} {row : Record} {notes : List Note} {note : Note}
  {folder name : String}

/-- Whether some row stores a folder by this name. -/
def Stores (rows : List Record) (folder : String) : Prop :=
  ∃ row ∈ rows, row.get? "folder" = some (.text folder)

/-- A note shows the folder that its row names, or the default one if it names none. -/
theorem folder_shown (h : note.ReadFrom row) :
    row.Unfiled ∧ note.folder = Note.defaultFolder ∨
      row.get? "folder" = some (.text note.folder) ∧ note.folder ≠ "" := by
  have hread := h.folder
  unfold Record.optional at hread
  unfold Record.Unfiled
  cases hfolder : row.get? "folder" with
  | none =>
    rw [hfolder] at hread
    exact .inl ⟨.inl rfl, (Except.ok.inj hread).symm⟩
  | some value =>
    rw [hfolder] at hread
    obtain ⟨stored, hstored, hshown⟩ := bind_eq_ok.mp hread
    cases value with
    | null =>
      cases hstored
      exact .inl ⟨.inr (.inl rfl), (Except.ok.inj hshown).symm⟩
    | text text =>
      cases hstored
      by_cases hempty : text = ""
      · subst hempty
        exact .inl ⟨.inr (.inr rfl), (Except.ok.inj hshown).symm⟩
      · have hsame : text = note.folder := by simpa [hempty, pure, Except.pure] using hshown
        exact .inr ⟨by rw [hsame], hsame ▸ hempty⟩
    | _ => cases hstored

theorem folder_eq_iff (h : note.ReadFrom row) : note.folder = folder ↔
    row.get? "folder" = some (.text folder) ∧ folder ≠ "" ∨
      row.Unfiled ∧ folder = Note.defaultFolder := by
  rcases folder_shown h with ⟨hunfiled, hshown⟩ | ⟨hstored, hne⟩
  · have hnone : ¬ (row.get? "folder" = some (.text folder) ∧ folder ≠ "") :=
      fun ⟨hstored, hne⟩ => hne (hunfiled.eq_empty hstored)
    rw [hshown, or_iff_right hnone]
    simp [hunfiled, eq_comm]
  · have hfiled : ¬ row.Unfiled := fun hunfiled => hne (hunfiled.eq_empty hstored)
    rw [hstored]
    constructor
    · rintro rfl
      exact .inl ⟨rfl, hne⟩
    · rintro (⟨hsame, -⟩ | ⟨hunfiled, -⟩)
      · simpa using hsame
      · exact absurd hunfiled hfiled

/-- A row is found in a folder exactly if its note shows that folder, but for a row that stores the
empty name, which no note shows, and for one without a folder, which shows the default one. -/
theorem hasText_folder_iff (h : note.ReadFrom row) :
    (Predicate.hasText "folder" folder).holds row = decide (note.folder = folder) ↔
      (folder = "" → row.get? "folder" ≠ some (.text "")) ∧
        (folder = Note.defaultFolder → ¬ row.Unfiled) := by
  rw [Bool.eq_iff_iff, Predicate.holds_hasText, decide_eq_true_iff, folder_eq_iff h]
  by_cases hempty : folder = ""
  · subst hempty
    simp [Note.defaultFolder]
  · by_cases hdefault : folder = Note.defaultFolder
    · subst hdefault
      have hfiled : row.get? "folder" = some (.text Note.defaultFolder) → ¬ row.Unfiled :=
        fun hstored hunfiled => hempty (hunfiled.eq_empty hstored)
      simp only [hempty, false_implies, true_implies, ne_eq, not_false_eq_true, and_true, true_and]
      by_cases hunfiled : row.Unfiled
      · simpa [hunfiled] using hfiled.mt (not_not_intro hunfiled)
      · simp [hunfiled]
    · simp [hempty, hdefault]

theorem readFrom_row (h : decodeRow .notes Note.ofJson row = .ok note) : note.ReadFrom row :=
  Note.readFrom (mapError_eq_ok.mp h)

/-- The listed notes are those that the rows are read as, each of which can be read. -/
theorem rows_of_all (hrows : store.tableRows .notes = .ok rows) (h : Notes.all store = .ok notes) :
    (∀ row ∈ rows, ∃ note ∈ notes, decodeRow .notes Note.ofJson row = .ok note) ∧
      ∀ note ∈ notes, ∃ row ∈ rows, decodeRow .notes Note.ofJson row = .ok note :=
  Store.rows_of_readEach _ (everyNote.descending "updated_at") hrows rfl rfl h

theorem inFolder_eq_filter_iff (hrows : store.tableRows .notes = .ok rows)
    (h : Notes.all store = .ok notes) (folder : String) :
    ∃ found, Notes.inFolder folder store = .ok found ∧
      (found = notes.filter (·.folder = folder) ↔
        (folder = "" → ¬ Stores rows "") ∧
          (folder = Note.defaultFolder → ∀ row ∈ rows, ¬ row.Unfiled)) := by
  obtain ⟨stored, found, hstored, hfound, hiff⟩ := Store.readEach_filtered_iff
    (everyNote.descending "updated_at") h rfl rfl (.hasText "folder" folder)
    (·.folder = folder)
  cases hrows.symm.trans hstored
  have hrow : ∀ row ∈ rows, (∀ note, decodeRow .notes Note.ofJson row = .ok note →
      (Predicate.hasText "folder" folder).holds row = decide (note.folder = folder)) ↔
      (folder = "" → row.get? "folder" ≠ some (.text "")) ∧
        (folder = Note.defaultFolder → ¬ row.Unfiled) := by
    intro row hrow
    obtain ⟨note, -, hnote⟩ := (rows_of_all hrows h).1 row hrow
    constructor
    · intro hall
      exact (hasText_folder_iff (readFrom_row hnote)).mp (hall note hnote)
    · intro hstored other hother
      exact (hasText_folder_iff (readFrom_row hother)).mpr hstored
  refine ⟨found, hfound, hiff.trans ((forall₂_congr hrow).trans ?_)⟩
  unfold Stores
  constructor
  · intro hall
    exact ⟨fun hempty ⟨row, hmem, hstored⟩ => (hall row hmem).1 hempty hstored,
      fun hdefault row hmem => (hall row hmem).2 hdefault⟩
  · rintro ⟨hempty, hdefault⟩ row hmem
    exact ⟨fun h hstored => hempty h ⟨row, hmem, hstored⟩, fun h => hdefault h row hmem⟩

/-- The names that are listed are the texts among the different values of the column. -/
theorem folders_eq (hrows : store.tableRows .notes = .ok rows) :
    Notes.folders store = .ok ((distinctValues "folder" [] rows).filterMap Json.text?) := by
  have hquery : store.query { everyNote with distinct := some "folder" } =
      .ok ((distinctValues "folder" [] rows).map fun value => [("folder", value)]) :=
    bind_eq_ok.mpr ⟨rows, hrows, rfl⟩
  refine bind_eq_ok.mpr ⟨_, hquery, congrArg Except.ok ?_⟩
  rw [List.filterMap_map]
  congr 1
  funext value
  cases value <;> rfl

/-- The names that are listed are those that are stored, each once. -/
theorem folders_of_rows (hrows : store.tableRows .notes = .ok rows) : ∃ names,
    Notes.folders store = .ok names ∧ names.Nodup ∧ ∀ name, name ∈ names ↔ Stores rows name := by
  obtain ⟨-, hdifferent, hcomplete, hfirst, -⟩ := listsUnseen_distinctValues "folder" [] rows
  refine ⟨_, folders_eq hrows, ?_, fun name => ?_⟩
  · refine hdifferent.filterMap _ fun v w hne name hv other hw heq => ?_
    rw [Json.text?_eq_some_iff.mp hv, Json.text?_eq_some_iff.mp hw, heq,
      Json.same_text_iff.mpr rfl] at hne
    cases hne
  · simp only [List.mem_filterMap, Json.text?_eq_some_iff, exists_eq_right]
    constructor
    · intro hmem
      obtain ⟨row, hrow, hvalue⟩ := Option.map_eq_some_iff.mp (hfirst _ hmem)
      refine ⟨row, List.mem_of_getElem? hrow, ?_⟩
      unfold columnValue at hvalue
      cases hget : row.get? "folder" with
      | none => simp [hget] at hvalue
      | some value => simpa [hget] using hvalue
    · rintro ⟨row, hrow, hstored⟩
      obtain ⟨value, hvalue, hsame⟩ := hcomplete row hrow
      rw [columnValue, hstored, Option.getD_some, Json.same_text_iff] at hsame
      rwa [List.nil_append, hsame] at hvalue

/-- The folders that the listed notes show. -/
theorem exists_folder_iff (hrows : store.tableRows .notes = .ok rows)
    (h : Notes.all store = .ok notes) : (∃ note ∈ notes, note.folder = name) ↔
      Stores rows name ∧ name ≠ "" ∨ (∃ row ∈ rows, row.Unfiled) ∧ name = Note.defaultFolder := by
  obtain ⟨hread, hnotes⟩ := rows_of_all hrows h
  constructor
  · rintro ⟨note, hnote, hfolder⟩
    obtain ⟨row, hrow, hfrom⟩ := hnotes note hnote
    rcases (folder_eq_iff (readFrom_row hfrom)).mp hfolder with ⟨hstored, hne⟩ | ⟨hunfiled, hname⟩
    · exact .inl ⟨⟨row, hrow, hstored⟩, hne⟩
    · exact .inr ⟨⟨row, hrow, hunfiled⟩, hname⟩
  · rintro (⟨⟨row, hrow, hstored⟩, hne⟩ | ⟨⟨row, hrow, hunfiled⟩, hname⟩)
    · obtain ⟨note, hnote, hfrom⟩ := hread row hrow
      exact ⟨note, hnote, (folder_eq_iff (readFrom_row hfrom)).mpr (.inl ⟨hstored, hne⟩)⟩
    · obtain ⟨note, hnote, hfrom⟩ := hread row hrow
      exact ⟨note, hnote, (folder_eq_iff (readFrom_row hfrom)).mpr (.inr ⟨hunfiled, hname⟩)⟩

/-- The names that are stored are the folders of the listed notes exactly if no row stores the empty
name, and some row the default folder if there is one without a folder. -/
theorem stores_iff_shown (hrows : store.tableRows .notes = .ok rows)
    (h : Notes.all store = .ok notes) :
    (∀ name, Stores rows name ↔ ∃ note ∈ notes, note.folder = name) ↔
      ¬ Stores rows "" ∧ ((∃ row ∈ rows, row.Unfiled) → Stores rows Note.defaultFolder) := by
  simp only [exists_folder_iff hrows h]
  constructor
  · intro hall
    refine ⟨fun hempty => ?_, fun hunfiled => (hall _).mpr (.inr ⟨hunfiled, rfl⟩)⟩
    rcases (hall "").mp hempty with ⟨-, hne⟩ | ⟨-, hname⟩
    · exact hne rfl
    · exact absurd hname (by decide)
  · rintro ⟨hempty, hdefault⟩ name
    constructor
    · intro hstored
      exact .inl ⟨hstored, fun hname => hempty (hname ▸ hstored)⟩
    · rintro (⟨hstored, -⟩ | ⟨hunfiled, rfl⟩)
      · exact hstored
      · exact hdefault hunfiled

/-- The names of the folders are those that are stored, each once. They are the folders that the notes
show exactly if no row stores the empty name, and some row the default folder if there is one without
a folder. The notes that are found in a folder are those of all notes that show it, in their order,
but for the empty name if it is stored and for the default folder if there are rows without one. -/
structure FilesNotes (rows : List Record) (notes : List Note) (names : List String)
    (store : Store) : Prop where
  stored : store.tableRows .notes = .ok rows
  listed : Notes.folders store = .ok names
  nodup : names.Nodup
  mem_iff : ∀ name, name ∈ names ↔ Stores rows name
  shown_iff : (∀ name, name ∈ names ↔ ∃ note ∈ notes, note.folder = name) ↔
    ¬ Stores rows "" ∧ ((∃ row ∈ rows, row.Unfiled) → Stores rows Note.defaultFolder)
  found : ∀ folder, ∃ found, Notes.inFolder folder store = .ok found ∧
    (found = notes.filter (·.folder = folder) ↔
      (folder = "" → ¬ Stores rows "") ∧
        (folder = Note.defaultFolder → ∀ row ∈ rows, ¬ row.Unfiled))

/-- Where all notes can be read, so can those of each folder and the names of the folders. -/
theorem folders_agree (h : Notes.all store = .ok notes) :
    ∃ rows names, FilesNotes rows notes names store := by
  obtain ⟨selected, hselected, -⟩ := bind_eq_ok.mp h
  obtain ⟨rows, hrows, -⟩ := bind_eq_ok.mp hselected
  obtain ⟨names, hnames, hnodup, hmem⟩ := folders_of_rows hrows
  refine ⟨rows, names, hrows, hnames, hnodup, hmem, ?_, inFolder_eq_filter_iff hrows h⟩
  simp only [hmem]
  exact stores_iff_shown hrows h

/-- A note in a folder and one that is created in the default folder. -/
def filing : List Turn := [
  ⟨⟨0⟩, 0, .createNote { title := "Diary" }⟩,
  ⟨⟨1⟩, 1, .createNote { title := "Trains", folder := "Trips" }⟩]

theorem folders_agree_filing : ∃ notes found,
    Notes.all (afterTurns filing (fresh ⟨0⟩)).store = .ok notes ∧
      Notes.inFolder "Trips" (afterTurns filing (fresh ⟨0⟩)).store = .ok found ∧
        found = notes.filter (·.folder = "Trips") := by
  have hrestores : ∀ turn ∈ filing, ¬ turn.operation.Restores := by
    simp [filing, Operation.Restores]
  obtain ⟨content, scheme, h, hfit, -⟩ :=
    fit_afterTurns hrestores (Store.holdsPlain_fresh ⟨0⟩) fit_fresh settings_fresh
  obtain ⟨notes, hnotes⟩ := (hfit.legible h.holds).notes
  obtain ⟨rows, names, hfiles⟩ := folders_agree hnotes
  obtain ⟨found, hfound, hiff⟩ := hfiles.found "Trips"
  have hother : ∀ {p : Prop} {name : String}, "Trips" ≠ name → "Trips" = name → p :=
    fun hne heq => absurd heq hne
  exact ⟨notes, found, hnotes, hfound, hiff.mpr ⟨hother (by decide), hother (by decide)⟩⟩

/-- A document with a note that has no folder. -/
def unfiledText : String :=
  "\x7b\"data\":\x7b\"notes\":[\x7b\"id\":\"n\",\"title\":\"Diary\",\"created_at\":\"\",\"updated_at\":\"\"\x7d]\x7d\x7d"

/-- A planner that was just made, after the document was restored. -/
def unfiled : Workspace := stateAfter (Transfer.restoreText unfiledText (fresh ⟨0⟩))

/-- The restored note is shown in the default folder, but it is not found there, and no folder is
listed. -/
theorem not_folders_agree_unfiled : ∃ note, Notes.all unfiled.store = .ok [note] ∧
    note.folder = Note.defaultFolder ∧ Notes.inFolder Note.defaultFolder unfiled.store = .ok [] ∧
      Notes.folders unfiled.store = .ok [] := by
  obtain ⟨⟨notes, found, names⟩, hread, hlists⟩ := exists_of_any
    (x := do return (← Notes.all unfiled.store, ← Notes.inFolder Note.defaultFolder unfiled.store,
      ← Notes.folders unfiled.store))
    (p := fun lists => decide (lists.1.map Note.folder = [Note.defaultFolder]) &&
      lists.2.1.isEmpty && lists.2.2.isEmpty) (by decide +kernel)
  obtain ⟨_, hall, hread⟩ := bind_eq_ok.mp hread
  obtain ⟨_, hfound, hread⟩ := bind_eq_ok.mp hread
  obtain ⟨_, hnames, hread⟩ := bind_eq_ok.mp hread
  cases hread
  simp only [Bool.and_eq_true, decide_eq_true_iff, List.isEmpty_iff] at hlists
  obtain ⟨⟨hfolders, rfl⟩, rfl⟩ := hlists
  obtain ⟨note, rfl, hfolder⟩ := List.map_eq_singleton_iff.mp hfolders
  exact ⟨note, hall, hfolder, hfound, hnames⟩

end Notes
end Planner

import Planner.Proofs.Notes.Ascii
import Planner.Proofs.Notes.Escapes
import Planner.Proofs.Occurrences

/-! The notes that a search finds when their texts are ASCII: those with the text in their title, their
content or the text of the list of their tags. It is found there as in the tags themselves if nothing is
escaped and it is no bracket and no comma, and whatever the tags are if the text is faithful. -/
namespace Planner

open Outcome Predicate Workspace
open CommandLine (fresh)
open Json (Stray Unescaped Faithful FoundAsInTexts listText)
open Text (IsAscii)

/-! ### Texts in letters of any case -/

variable {query text : String} {tags : List String}

/-- What is looked for, in lower case. -/
def folded (query : String) : List Char := (needle query).map Char.toLower

/-- Whether a text has a part that differs from what is looked for only in the case of letters. -/
def Mentions (query text : String) : Prop :=
  ∃ part, part <:+: text.toList ∧ part.map Char.toLower = folded query

theorem mentions_iff : Mentions query text ↔ folded query <:+: text.toList.map Char.toLower := by
  rw [List.infix_map_iff]
  simp only [Mentions, eq_comm]

instance (query text : String) : Decidable (Mentions query text) :=
  decidable_of_iff (Text.occursIn (folded query) (text.toList.map Char.toLower) = true)
    (Text.occursIn_iff.trans mentions_iff.symm)

theorem isAscii_needle (h : IsAscii query.toList) : IsAscii (needle query) :=
  fun c hc => h c (List.mem_of_mem_filter hc)

theorem likeHolds_eq_mentions (hquery : IsAscii query.toList) (hneedle : needle query ≠ [])
    (htext : IsAscii text.toList) : likeHolds query (some (.text text)) = decide (Mentions query text) := by
  rw [Bool.eq_iff_iff, likeHolds_text, (isAscii_needle hquery).lower_eq, htext.lower_eq,
    decide_eq_true_iff, mentions_iff]
  refine and_iff_right_of_imp ?_
  rintro hpart rfl
  exact hneedle (List.map_eq_nil_iff.mp (List.infix_nil.mp hpart))

theorem isAscii_tagsText (h : ∀ tag ∈ tags, IsAscii tag.toList) : IsAscii (tagsText tags).toList := by
  rw [toList_tagsText]
  exact Json.isAscii_listText (List.forall_mem_map.mpr h)

theorem mentions_tagsText_iff (h : ∀ tag ∈ tags, IsAscii tag.toList) : Mentions query (tagsText tags) ↔
    folded query <:+: listText (tags.map (·.toList.map Char.toLower)) := by
  rw [mentions_iff, toList_tagsText, ← Json.listText_toLower (List.forall_mem_map.mpr h), List.map_map]
  rfl

/-! ### The text of tags -/

section Tags

theorem folded_ne_nil (hneedle : needle query ≠ []) : folded query ≠ [] :=
  fun hnil => hneedle (List.map_eq_nil_iff.mp hnil)

theorem not_mentions_empty (hneedle : needle query ≠ []) : ¬ Mentions query "" := by
  rw [mentions_iff]
  exact fun hpart => folded_ne_nil hneedle (List.infix_nil.mp hpart)

theorem mentions_tagsText_iff_exists (htags : ∀ tag ∈ tags, IsAscii tag.toList) :
    (Mentions query (tagsText tags) ↔ ∃ tag ∈ tags, Mentions query tag) ↔
      FoundAsInTexts (folded query) (tags.map (·.toList.map Char.toLower)) := by
  rw [FoundAsInTexts, mentions_tagsText_iff htags]
  simp only [mentions_iff, List.mem_map, exists_exists_and_eq_and]

variable (hquery : IsAscii query.toList) (hneedle : needle query ≠ [])
include hquery hneedle

/-- Where nothing is escaped, neither in what is looked for nor in the tags, only the marks of a list
are found that no tag has. -/
theorem foundAsInTexts_of_unescaped (hplain : Unescaped (needle query)) (hstray : ¬ Stray (folded query))
    (htags : ∀ tag ∈ tags, IsAscii tag.toList) (hunescaped : ∀ tag ∈ tags, Unescaped tag.toList) :
    FoundAsInTexts (folded query) (tags.map (·.toList.map Char.toLower)) := by
  have hlower : ∀ {s : List Char}, IsAscii s → Unescaped s → Unescaped (s.map Char.toLower) := by
    intro s hascii hs
    refine List.forall_mem_map.mpr fun c hc => ?_
    rw [(Json.escapeChar_ascii c (hascii c hc)).2, hs c hc]
    rfl
  refine (hlower (isAscii_needle hquery) hplain).infix_listText_iff_exists (folded_ne_nil hneedle) hstray
    (.inr (List.forall_mem_map.mpr fun tag htag => ?_))
  exact hlower (htags tag htag) (hunescaped tag htag)

/-- Texts that are found in the text of tags exactly where they are found in one of the tags are
faithful. -/
theorem faithful_folded (hall : ∀ tags : List String, (∀ tag ∈ tags, IsAscii tag.toList) →
    (Mentions query (tagsText tags) ↔ ∃ tag ∈ tags, Mentions query tag)) :
    Faithful (folded query) := by
  refine .of_found (fun texts hchars => ?_) (folded_ne_nil hneedle)
  have hlower : ∀ s ∈ texts, ∀ c ∈ s, c.toNat < 128 ∧ c.toLower = c := by
    intro s hs c hc
    rcases hchars s hs c hc with hmem | hescaped
    · obtain ⟨d, hd, rfl⟩ := List.mem_map.mp hmem
      exact Text.ascii_toLower d (isAscii_needle hquery d hd)
    · exact ⟨Json.ascii_of_escaped hescaped, Json.toLower_of_escaped c hescaped⟩
  have hascii : ∀ tag ∈ texts.map String.ofList, IsAscii tag.toList := by
    refine List.forall_mem_map.mpr fun s hs c hc => (hlower s hs c ?_).1
    rwa [String.toList_ofList] at hc
  have hsame : (texts.map String.ofList).map (·.toList.map Char.toLower) = texts := by
    rw [List.map_map]
    refine (List.map_congr_left fun s hs => ?_).trans (List.map_id texts)
    rw [Function.comp_apply, String.toList_ofList]
    exact (List.map_congr_left fun c hc => (hlower s hs c hc).2).trans (List.map_id s)
  rw [← hsame]
  exact (mentions_tagsText_iff_exists hascii).mp (hall _ hascii)

end Tags

/-! ### Notes -/

namespace Note

/-- Whether what is looked for is found in the title, the content, or the text of the tags. -/
def Matches (query : String) (note : Note) : Prop :=
  Mentions query note.title ∨ Mentions query note.content ∨ Mentions query (tagsText note.tags)

/-- Whether what is looked for is found in the title, the content, or one of the tags. -/
def Has (query : String) (note : Note) : Prop :=
  Mentions query note.title ∨ Mentions query note.content ∨ ∃ tag ∈ note.tags, Mentions query tag

instance (query : String) : DecidablePred (Matches query) := fun note =>
  inferInstanceAs (Decidable (Mentions query note.title ∨ Mentions query note.content ∨
    Mentions query (tagsText note.tags)))

instance (query : String) : DecidablePred (Has query) := fun note =>
  inferInstanceAs (Decidable (Mentions query note.title ∨ Mentions query note.content ∨
    ∃ tag ∈ note.tags, Mentions query tag))

theorem filter_matches_eq {notes : List Note} (hascii : ∀ note ∈ notes, note.Ascii)
    (h : ∀ note ∈ notes,
      FoundAsInTexts (folded query) (note.tags.map (·.toList.map Char.toLower))) :
    notes.filter (·.Matches query) = notes.filter (·.Has query) := by
  refine List.filter_congr fun note hnote => ?_
  have htags := (mentions_tagsText_iff_exists (hascii note hnote).tags).mpr (h note hnote)
  rw [Bool.eq_iff_iff, decide_eq_true_iff, decide_eq_true_iff, Matches, Has, htags]

end Note

namespace Notes

variable {store : Store} {rows : List Record} {notes : List Note}

theorem search_eq_filter (hrows : store.tableRows .notes = .ok rows)
    (hascii : ∀ row ∈ rows, Note.AsciiRow row) (h : Notes.all store = .ok notes)
    (hquery : IsAscii query.toList) (hneedle : needle query ≠ []) :
    Notes.search query store = .ok (notes.filter (·.Matches query)) := by
  obtain ⟨stored, found, hstored, hfound, hiff⟩ := Store.readEach_filtered_iff
    (everyNote.descending "updated_at") h rfl rfl
    (.any [.contains "title" query, .contains "content" query, .contains "tags" query])
    (·.Matches query)
  cases hrows.symm.trans hstored
  refine hfound.trans (congrArg Except.ok (hiff.mpr fun row hrow note hnote => ?_))
  obtain ⟨hnote, htitle, hcontent, htags⟩ :=
    (hascii row hrow).of_readFrom (Note.readFrom (mapError_eq_ok.mp hnote))
  have htext : TextList.column note.tags = .text (tagsText note.tags) := rfl
  rw [Bool.eq_iff_iff, decide_eq_true_iff, Note.Matches]
  simp only [holds, anyHolds, Predicate.contains, likeHolds_contains, htitle, hcontent, htags, htext,
    likeHolds_eq_mentions hquery hneedle hnote.title,
    likeHolds_eq_mentions hquery hneedle hnote.content,
    likeHolds_eq_mentions hquery hneedle (isAscii_tagsText hnote.tags), Bool.or_false,
    Bool.or_eq_true, decide_eq_true_iff]

/-- Notes of different rows have different ids, if the rows have different keys. -/
theorem nodup_ids (hrows : store.tableRows .notes = .ok rows)
    (hkey : ∀ row ∈ rows, Store.HasKey .notes row) (hdistinct : Store.KeysDistinct .notes rows)
    (h : Notes.all store = .ok notes) : (notes.map Note.id).Nodup := by
  obtain ⟨selected, hselected, hread⟩ := bind_eq_ok.mp h
  obtain ⟨stored, hstored, hevaluate⟩ := bind_eq_ok.mp hselected
  cases hrows.symm.trans hstored
  cases hevaluate
  have hids : rows.Pairwise fun a b => a.get? "id" ≠ b.get? "id" := by
    refine hdistinct.imp_of_mem fun {a b} ha _ hne heq => hne ?_
    refine (Store.sameKey_iff (hkey a ha)).mpr fun column hcolumn => ?_
    obtain ⟨id, hid⟩ := Option.isSome_iff_exists.mp (hkey a ha column hcolumn)
    obtain rfl : column = "id" := List.mem_singleton.mp hcolumn
    exact ⟨id, hid, id, heq ▸ hid, Json.same_iff.mpr rfl⟩
  have hperm : rows.Perm ((everyNote.descending "updated_at").evaluate rows) :=
    (List.mergeSort_perm rows _).symm
  have hsame : notes.map (fun note => some (Json.text note.id)) =
      ((everyNote.descending "updated_at").evaluate rows).map (·.get? "id") :=
    map_of_mapM_eq_ok hread fun row note hnote => (Note.readFrom (mapError_eq_ok.mp hnote)).id.symm
  have hnodup : (notes.map fun note => some (Json.text note.id)).Nodup := by
    rw [hsame]
    exact List.pairwise_map.mpr (hids.perm hperm Ne.symm)
  refine List.Nodup.of_map (fun id => some (Json.text id)) ?_
  rwa [List.map_map]

section Runs

variable {turns : List Turn} {query : String}
  (hrestores : ∀ turn ∈ turns, ¬ turn.operation.Restores)
  (hascii : ∀ turn ∈ turns, turn.operation.WritesAscii) (now : Instant)
include hrestores hascii

theorem exists_asciiRows : ∃ rows, (afterTurns turns (fresh now)).store.tableRows .notes = .ok rows ∧
    ∀ row ∈ rows, Note.AsciiRow row := by
  obtain ⟨content, hcontent, hrows⟩ := asciiRows_afterTurns hrestores hascii
    (Store.holdsPlain_fresh now) (by simp [Function.update_of_ne])
  exact ⟨_, hcontent.holds.tableRows .notes, hrows⟩

theorem exists_asciiNotes : ∃ notes, Notes.all (afterTurns turns (fresh now)).store = .ok notes ∧
    ∀ note ∈ notes, note.Ascii := by
  obtain ⟨content, scheme, hcontent, hfit, -⟩ :=
    fit_afterTurns hrestores (Store.holdsPlain_fresh now) fit_fresh settings_fresh
  obtain ⟨notes, hnotes⟩ := (hfit.legible hcontent.holds).notes
  obtain ⟨rows, hrows, hasciiRows⟩ := exists_asciiRows hrestores hascii now
  refine ⟨notes, hnotes, fun note hnote => ?_⟩
  obtain ⟨row, hrow, hread⟩ := (Store.rows_of_readEach (decodeRow .notes Note.ofJson)
    (everyNote.descending "updated_at") hrows rfl rfl hnotes).2 note hnote
  exact ((hasciiRows row hrow).of_readFrom (Note.readFrom (mapError_eq_ok.mp hread))).1

theorem search_afterTurns (h : Notes.all (afterTurns turns (fresh now)).store = .ok notes)
    (hquery : IsAscii query.toList) (hneedle : needle query ≠ []) :
    Notes.search query (afterTurns turns (fresh now)).store = .ok (notes.filter (·.Matches query)) := by
  obtain ⟨rows, hrows, hasciiRows⟩ := exists_asciiRows hrestores hascii now
  exact search_eq_filter hrows hasciiRows h hquery hneedle

end Runs

/-- The note that is created in a workspace. -/
def created (new : NewNote) (w : Workspace) : Note where
  id := idOfNumber (w.issued + 1)
  title := new.title
  content := new.content
  folder := new.folder
  tags := new.tags
  createdAt := w.now.toText
  updatedAt := w.now.toText

theorem store_create (new : NewNote) (w : Workspace) : (stateAfter (create new w)).store =
    CommandLine.storeAfter (.insertFields .notes (created new w).columns .append) w.store :=
  congrArg Workspace.store <| (stateAfter_bind_pure (append .notes (created new w).columns)
    (fun _ => created new w) { w with issued := w.issued + 1 }).trans (stateAfter_append _ _)

theorem tableRows_create {w : Workspace} {content : Table → List Record}
    (h : w.store.HoldsPlain content) (new : NewNote) :
    (stateAfter (create new w)).store.tableRows .notes =
      .ok (content .notes ++ [Record.ofFields (created new w).columns]) := by
  have hvalues : ∀ v ∈ (Statement.insertFields .notes (created new w).columns .append).values, v.Plain :=
    List.forall_mem_map.mpr (created new w).columns_id.plain
  have hself : (Statement.insertFields .notes (created new w).columns .append).after content .notes =
      Statement.rowsAfter _ (content .notes) := Statement.after_self
  rw [store_create, (h.storeAfter hvalues).holds.tableRows .notes]
  refine congrArg Except.ok (hself.trans ?_)
  rw [Statement.rowsAfter, Store.effect_insertFields, if_pos rfl]

/-- A note that is created is among the notes. -/
theorem exists_created {w : Workspace} {content : Table → List Record}
    (hplain : w.store.HoldsPlain content) (new : NewNote)
    (h : Notes.all (stateAfter (create new w)).store = .ok notes) :
    ∃ note ∈ notes, note.title = new.title ∧ note.content = new.content ∧ note.tags = new.tags := by
  obtain ⟨note, hnote, hread⟩ := (Store.rows_of_readEach (decodeRow .notes Note.ofJson)
    (everyNote.descending "updated_at") (tableRows_create hplain new) rfl rfl h).1 _
      (List.mem_append_right _ (List.mem_singleton_self _))
  obtain ⟨htitle, hcontent, htags⟩ := (created new w).get?_columns
  obtain ⟨htitle, hcontent, htags⟩ :=
    (Note.readFrom (mapError_eq_ok.mp hread)).eq_of_get? htitle hcontent htags
  exact ⟨note, hnote, htitle.symm, hcontent.symm, htags.symm⟩

/-- Whether a search finds, after every run of operations that write ASCII to the notes and restore
nothing, those of all notes that have the text in their title, their content or a tag. -/
def FindsExactly (query : String) : Prop :=
  ∀ (now : Instant) (turns : List Turn) (notes : List Note),
    (∀ turn ∈ turns, ¬ turn.operation.Restores) → (∀ turn ∈ turns, turn.operation.WritesAscii) →
      Notes.all (afterTurns turns (fresh now)).store = .ok notes →
        Notes.search query (afterTurns turns (fresh now)).store = .ok (notes.filter (·.Has query))

/-- A search for faithful texts is exact. One for another text finds too much or too little in a run
that creates a single note. -/
theorem findsExactly_iff (hquery : IsAscii query.toList) (hneedle : needle query ≠ []) :
    FindsExactly query ↔ Faithful (folded query) := by
  constructor
  · intro hfinds
    refine faithful_folded hquery hneedle fun tags htags => ?_
    have hrestores : ∀ turn ∈ [Turn.mk ⟨0⟩ 0 (.createNote { title := "", tags })],
        ¬ turn.operation.Restores := List.forall_mem_singleton.mpr id
    have hempty : IsAscii "".toList := by decide
    have hascii : ∀ turn ∈ [Turn.mk ⟨0⟩ 0 (.createNote { title := "", tags })],
        turn.operation.WritesAscii := List.forall_mem_singleton.mpr ⟨hempty, hempty, htags⟩
    obtain ⟨notes, hnotes, -⟩ := exists_asciiNotes hrestores hascii ⟨0⟩
    obtain ⟨note, hnote, htitle, hcontent, hnoteTags⟩ :=
      exists_created (Store.holdsPlain_fresh ⟨0⟩) { title := "", tags } hnotes
    have hsearch := (search_afterTurns hrestores hascii ⟨0⟩ hnotes hquery hneedle).symm.trans
      (hfinds ⟨0⟩ _ notes hrestores hascii hnotes)
    have hsame : note ∈ notes.filter (·.Matches query) ↔ note ∈ notes.filter (·.Has query) := by
      rw [Except.ok.inj hsearch]
    simp only [List.mem_filter, hnote, true_and, decide_eq_true_iff, Note.Matches, Note.Has, htitle,
      hcontent, hnoteTags, not_mentions_empty hneedle, false_or] at hsame
    exact hsame
  · intro hfaithful now turns notes hrestores hascii h
    obtain ⟨read, hread, hnotes⟩ := exists_asciiNotes hrestores hascii now
    cases h.symm.trans hread
    rw [search_afterTurns hrestores hascii now h hquery hneedle, Note.filter_matches_eq hnotes]
    exact fun note _ => hfaithful.found (folded_ne_nil hneedle) _

/-- A search of the notes that a run leaves finds those of all notes, in their order, that have the
text, percent signs apart, in their title, their content or the text of their tags; if all ids were
new, no two with one id. Those are the notes that have it in their title, their content or a tag if
nothing is escaped in it or in the tags and it is no mark of a list. They are so after every such run
exactly if the text is faithful. -/
structure FindsNotes (now : Instant) (turns : List Turn) (query : String)
    (notes found : List Note) : Prop where
  allNotes : Notes.all (afterTurns turns (fresh now)).store = .ok notes
  search : Notes.search query (afterTurns turns (fresh now)).store = .ok found
  matching : found = notes.filter (·.Matches query)
  nodup : (∀ n (turn : Turn), turns[n]? = some turn →
    turn.operation.TakesNewIds (turn.start (afterTurns (turns.take n) (fresh now)))) →
      (found.map Note.id).Nodup
  having : Unescaped (needle query) → ¬ Stray (folded query) →
    (∀ note ∈ notes, ∀ tag ∈ note.tags, Unescaped tag.toList) → found = notes.filter (·.Has query)
  exactly_iff : FindsExactly query ↔ Faithful (folded query)

/-- Notes are found by ASCII after a run of operations that write ASCII to them and restore nothing. -/
theorem search_finds (now : Instant) (turns : List Turn) (query : String)
    (hrestores : ∀ turn ∈ turns, ¬ turn.operation.Restores)
    (hascii : ∀ turn ∈ turns, turn.operation.WritesAscii) (hquery : IsAscii query.toList)
    (hneedle : needle query ≠ []) : ∃ notes found, FindsNotes now turns query notes found := by
  obtain ⟨notes, hnotes, hnoteAscii⟩ := exists_asciiNotes hrestores hascii now
  refine ⟨notes, _, hnotes, search_afterTurns hrestores hascii now hnotes hquery hneedle, rfl,
    fun hnew => ?_, fun hplain hstray hunescaped => ?_, findsExactly_iff hquery hneedle⟩
  · obtain ⟨rows, hrows, -⟩ := exists_asciiRows hrestores hascii now
    have hunique : Store.KeysUnique (afterTurns turns (fresh now)).store :=
      keysUnique_afterTurns (keysUnique_fresh now)
        (fun turn hturn => Operation.bringsKeysApart (hrestores turn hturn)) hnew
    obtain ⟨hkey, -, hdistinct⟩ := hunique.unique .notes _ hrows
    exact (nodup_ids hrows hkey hdistinct hnotes).sublist (List.filter_sublist.map _)
  · refine Note.filter_matches_eq hnoteAscii fun note hnote => ?_
    exact foundAsInTexts_of_unescaped hquery hneedle hplain hstray (hnoteAscii note hnote).tags
      (hunescaped note hnote)

/-- A note with tags. -/
def journal : List Turn := [⟨⟨0⟩, 0, .createNote { title := "Diary", tags := ["Travel", "work"] }⟩]

theorem search_finds_journal : ∃ notes found,
    Notes.all (afterTurns journal (fresh ⟨0⟩)).store = .ok notes ∧
      Notes.search "%TRAV" (afterTurns journal (fresh ⟨0⟩)).store = .ok found ∧
        found = notes.filter (·.Has "%TRAV") ∧ found.map Note.title = ["Diary"] := by
  have hrestores : ∀ turn ∈ journal, ¬ turn.operation.Restores := by
    simp [journal, Operation.Restores]
  have hascii : ∀ turn ∈ journal, turn.operation.WritesAscii := by
    refine List.forall_mem_singleton.mpr ⟨by decide, by decide, by decide⟩
  obtain ⟨notes, found, hfinds⟩ :=
    search_finds ⟨0⟩ journal "%TRAV" hrestores hascii (by decide) (by decide)
  obtain ⟨⟨read, listed⟩, hread, hlists⟩ := exists_of_any
    (x := do return (← Notes.all (afterTurns journal (fresh ⟨0⟩)).store,
      ← Notes.search "%TRAV" (afterTurns journal (fresh ⟨0⟩)).store))
    (p := fun lists => decide (∀ note ∈ lists.1, ∀ tag ∈ note.tags, Unescaped tag.toList) &&
      decide (lists.2.map Note.title = ["Diary"])) (by decide +kernel)
  obtain ⟨_, hall, hread⟩ := bind_eq_ok.mp hread
  obtain ⟨_, hlisted, hread⟩ := bind_eq_ok.mp hread
  cases hread
  cases hfinds.allNotes.symm.trans hall
  cases hfinds.search.symm.trans hlisted
  simp only [Bool.and_eq_true, decide_eq_true_iff] at hlists
  exact ⟨notes, found, hfinds.allNotes, hfinds.search,
    hfinds.having (by decide) (by decide) hlists.1, hlists.2⟩

/-- A note with a tag in which a quote is escaped. -/
def quoting : List Turn := [⟨⟨0⟩, 0, .createNote { title := "Diary", tags := ["a\"b"] }⟩]

/-- The note is not found by its tag, but by a bracket that it does not have. -/
theorem not_search_finds_quoting : (∀ turn ∈ quoting, turn.operation.WritesAscii) ∧ ∃ note,
    Notes.all (afterTurns quoting (fresh ⟨0⟩)).store = .ok [note] ∧
      note.Has "a\"b" ∧ Notes.search "a\"b" (afterTurns quoting (fresh ⟨0⟩)).store = .ok [] ∧
      ¬ note.Has "[" ∧ Notes.search "[" (afterTurns quoting (fresh ⟨0⟩)).store = .ok [note] := by
  refine ⟨List.forall_mem_singleton.mpr ⟨by decide, by decide, by decide⟩, ?_⟩
  obtain ⟨⟨notes, missed, found⟩, hread, hlists⟩ := exists_of_any
    (x := do return (← Notes.all (afterTurns quoting (fresh ⟨0⟩)).store,
      ← Notes.search "a\"b" (afterTurns quoting (fresh ⟨0⟩)).store,
      ← Notes.search "[" (afterTurns quoting (fresh ⟨0⟩)).store))
    (p := fun lists => decide (lists.1.length = 1) && lists.1.all (·.Has "a\"b") &&
      lists.1.all (¬ ·.Has "[") && lists.2.1.isEmpty && decide (lists.2.2 = lists.1))
    (by decide +kernel)
  obtain ⟨_, hall, hread⟩ := bind_eq_ok.mp hread
  obtain ⟨_, hmissed, hread⟩ := bind_eq_ok.mp hread
  obtain ⟨_, hfound, hread⟩ := bind_eq_ok.mp hread
  cases hread
  simp only [Bool.and_eq_true, decide_eq_true_iff, List.isEmpty_iff] at hlists
  obtain ⟨⟨⟨⟨hlength, hhas⟩, hnot⟩, rfl⟩, rfl⟩ := hlists
  obtain ⟨note, rfl⟩ := List.length_eq_one_iff.mp hlength
  exact ⟨note, hall, by simpa using hhas, hmissed, by simpa using hnot, hfound⟩

end Notes

end Planner

import Planner.Proofs.Entity.Reading
import Planner.Proofs.Listing
import Planner.Proofs.Text.Lower
import Planner.Tasks

/-! What a pattern finds. A text that stands somewhere in a field is found there if its sigmas have the
same forms there as by themselves, and it is found wherever it stands only if it fixes their forms. -/
namespace Planner

open Outcome
open Text (FixesForms KeepsForms)

namespace Predicate

variable {pattern : String} {text : String} {field : Option Json}

theorem likeHolds_text (pattern : String) : likeHolds pattern (some (.text text)) = true ↔
    text ≠ "" ∧ Text.lower (needle pattern) <:+: Text.lower text.toList := by
  unfold likeHolds likeText
  by_cases h : text = "" <;> simp [h, Text.occursIn_iff]

/-- A missing field is searched as null is. -/
theorem likeHolds_getD (pattern : String) (field : Option Json) :
    likeHolds pattern (some (field.getD .null)) = likeHolds pattern field := by
  cases field <;> rfl

theorem needle_contains (text : String) : needle ("%" ++ text ++ "%") = needle text := by
  simp [needle]

theorem likeHolds_contains (text : String) (field : Option Json) :
    likeHolds ("%" ++ text ++ "%") field = likeHolds text field := by
  simp only [likeHolds, needle_contains]

/-- Whether a pattern stands in a text that is not empty, its sigmas in the forms that they have by
themselves. -/
def StandsIn (pattern text : String) : Prop :=
  text ≠ "" ∧ ∃ before after, text.toList = before ++ needle pattern ++ after ∧
    KeepsForms before.reverse after (needle pattern)

theorem StandsIn.likeHolds (h : StandsIn pattern text) :
    likeHolds pattern (some (.text text)) = true := by
  obtain ⟨hne, before, after, htext, hforms⟩ := h
  rw [likeHolds_text, htext]
  exact ⟨hne, hforms.infix_lower⟩

/-- A pattern that fixes the forms of its sigmas stands so wherever it stands. -/
theorem standsIn_of_fixesForms (h : FixesForms (needle pattern)) (hne : text ≠ "")
    (hpart : needle pattern <:+: text.toList) : StandsIn pattern text := by
  obtain ⟨before, after, htext⟩ := hpart
  exact ⟨hne, before, after, htext.symm, h.keepsForms _ _⟩

/-- The patterns that find every text in which they stand are those that fix the forms of their
sigmas. -/
theorem forall_likeHolds_iff (pattern : String) :
    (∀ text : String, text ≠ "" → needle pattern <:+: text.toList →
      likeHolds pattern (some (.text text)) = true) ↔ FixesForms (needle pattern) := by
  rw [← Text.forall_lower_infix_iff]
  constructor
  · intro hall text hpart
    by_cases htext : text = []
    · rw [htext, List.infix_nil] at hpart
      rw [hpart]
      exact List.nil_infix
    · have hfound := hall (String.ofList text) (by simpa using htext) (by simpa using hpart)
      simpa using ((likeHolds_text pattern).mp hfound).2
  · intro hall text hne hpart
    exact (likeHolds_text pattern).mpr ⟨hne, hall _ hpart⟩

end Predicate

open Predicate

/-- Whether a pattern is found in the title or the description of a task. -/
def Task.shows (pattern : String) (task : Task) : Bool :=
  likeHolds pattern (some (.text task.title)) ||
    likeHolds pattern (some (.ofOptionalText task.description))

theorem Tasks.readFrom_hydrate {store : Store} {row : Record} {task : Task}
    (h : hydrate store row = .ok task) : ∃ read : Task, read.ReadFrom row ∧
      task = { read with subtasks := task.subtasks } := by
  obtain ⟨read, hread, h⟩ := bind_eq_ok.mp h
  obtain ⟨subtasks, -, h⟩ := bind_eq_ok.mp h
  cases h
  exact ⟨read, Task.readFrom (mapError_eq_ok.mp hread), rfl⟩

namespace Tasks

variable {store : Store} {rows : List Record} {found tasks : List Task} {query : String}

/-- A search gives those of all tasks in whose title or description the text is found. -/
theorem search_eq_filter (h : Tasks.all store = .ok tasks) (query : String) :
    Tasks.search query store = .ok (tasks.filter (·.shows query)) := by
  refine Store.readEach_filtered (everyTask.descending "created_at") h rfl rfl ?_
  intro row task hread
  obtain ⟨read, hfrom, htask⟩ := readFrom_hydrate hread
  rw [htask]
  simp only [holds, anyHolds, Predicate.contains, likeHolds_contains, Bool.or_false, Task.shows,
    hfrom.title, ← hfrom.description, likeHolds_getD]

theorem mem_search (h : Tasks.all store = .ok tasks) : ∃ found,
    Tasks.search query store = .ok found ∧ ∀ task ∈ tasks,
      ∀ text ∈ task.title :: task.description.toList, StandsIn query text → task ∈ found := by
  refine ⟨_, search_eq_filter h query, fun task htask text htext hstands => ?_⟩
  refine List.mem_filter.mpr ⟨htask, Bool.or_eq_true_iff.mpr ?_⟩
  rcases List.mem_cons.mp htext with rfl | hdescription
  · exact .inl hstands.likeHolds
  · rw [Option.mem_toList] at hdescription
    rw [hdescription]
    exact .inr hstands.likeHolds

/-- Whatever other rows hold, a search that gives a result has the tasks that it finds in it. -/
theorem exists_mem_search (hrows : store.tableRows .tasks = .ok rows)
    (h : Tasks.search query store = .ok found) {row : Record} (hrow : row ∈ rows)
    {column text : String} (hcolumn : column = "title" ∨ column = "description")
    (hget : row.get? column = some (.text text)) (hstands : StandsIn query text) :
    ∃ task ∈ found, hydrate store row = .ok task := by
  obtain ⟨hall, hmem⟩ := Store.mem_readEach (hydrate store) ((everyTask.filtered
    (.any [.contains "title" query, .contains "description" query])).descending "created_at")
    hrows rfl h
  have hchosen : Select.Chooses ((everyTask.filtered (.any [.contains "title" query,
      .contains "description" query])).descending "created_at") row := by
    have hfound : likeHolds query (row.get? "title") = true ∨
        likeHolds query (row.get? "description") = true := by
      rcases hcolumn with rfl | rfl
      · exact .inl (hget ▸ hstands.likeHolds)
      · exact .inr (hget ▸ hstands.likeHolds)
    simpa [Select.Chooses, Select.filtered, Select.descending, holds, anyHolds, Predicate.contains,
      likeHolds_contains] using hfound
  obtain ⟨task, htask⟩ := hall row hrow hchosen
  exact ⟨task, (hmem task).mpr ⟨row, hrow, hchosen, htask⟩, htask⟩

end Tasks

/-- A pattern finds every field in which it stands with its sigmas in the forms that they have by
themselves, and a search every task in whose title or description the text stands so. It finds all
the fields in which it stands in any way exactly if it fixes the forms of its sigmas, as it does
without a capital sigma. -/
structure FindsStanding (query : String) : Prop where
  holds : ∀ (row : Record) (column text : String), row.get? column = some (.text text) →
    StandsIn query text → (Predicate.like column query).holds row = true
  tasks : ∀ store tasks, Tasks.all store = .ok tasks →
    ∃ found, Tasks.search query store = .ok found ∧
      ∀ task ∈ tasks, ∀ text ∈ task.title :: task.description.toList, StandsIn query text →
        task ∈ found
  rows : ∀ store rows found, store.tableRows .tasks = .ok rows →
    Tasks.search query store = .ok found → ∀ row ∈ rows, ∀ column text,
      column = "title" ∨ column = "description" → row.get? column = some (.text text) →
        StandsIn query text → ∃ task ∈ found, Tasks.hydrate store row = .ok task
  stands : FixesForms (needle query) → ∀ text : String, text ≠ "" → needle query <:+: text.toList →
    StandsIn query text
  fixes : 'Σ' ∉ needle query → FixesForms (needle query)
  always_iff : (∀ (row : Record) (column text : String), row.get? column = some (.text text) →
    text ≠ "" → needle query <:+: text.toList → (Predicate.like column query).holds row = true) ↔
      FixesForms (needle query)

/-- Every pattern finds what it stands in. -/
theorem pattern_finds (query : String) : FindsStanding query := by
  refine ⟨fun row column text hget hstands => ?_, fun store tasks h => Tasks.mem_search h,
    fun store rows found hrows h row hrow column text hcolumn hget hstands =>
      Tasks.exists_mem_search hrows h hrow hcolumn hget hstands,
    fun h text hne hpart => standsIn_of_fixesForms h hne hpart, Text.fixesForms_of_notMem, ?_⟩
  · rw [holds, hget]
    exact hstands.likeHolds
  · rw [← forall_likeHolds_iff]
    constructor
    · intro hall text hne hpart
      have hfound := hall [("", .text text)] "" text rfl hne hpart
      exact hfound
    · intro hall row column text hget hne hpart
      rw [holds, hget]
      exact hall text hne hpart

/-- The end of a word in the middle of a text. -/
theorem pattern_finds_word : StandsIn "ΟΔΟΣ" "Η ΟΔΟΣ ΜΟΥ" ∧
    (Predicate.like "title" "%ΟΔΟΣ%").holds [("title", .text "Η ΟΔΟΣ ΜΟΥ")] = true := by
  have hstands : StandsIn "%ΟΔΟΣ%" "Η ΟΔΟΣ ΜΟΥ" :=
    ⟨by decide, "Η ".toList, " ΜΟΥ".toList, by decide +kernel,
      Text.keepsForms_iff.mpr (by decide +kernel)⟩
  exact ⟨hstands, (pattern_finds "%ΟΔΟΣ%").holds _ "title" _ rfl hstands⟩

/-- A sigma at the end of a pattern takes the form that ends a word, and so the pattern is not found
where the word goes on. -/
theorem not_finds_sigma :
    needle "ΑΣ" <:+: "ΑΣΑ".toList ∧
      (Predicate.like "title" "ΑΣ").holds [("title", .text "ΑΣΑ")] = false := by
  decide +kernel

end Planner

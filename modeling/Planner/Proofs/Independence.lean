import Planner.Proofs.CommandLine.Runs
import Planner.Proofs.Store.Footprint

/-! Requests on different tables do not disturb each other: in whatever order two lists of them are
mixed, each request has the reply that it has alone, and every text is the same in the end. -/
namespace Planner

open CommandLine (storeAfter)

/-- What a store is asked for: to run a statement, or to find rows. -/
inductive Request
  | apply (statement : Statement)
  | query (select : Select)

/-- What comes of a request. -/
inductive Reply
  | touched (result : Except DatabaseError Nat)
  | found (result : Except DatabaseError (List Record))

namespace Request

def table : Request → Table
  | apply statement => statement.table
  | query select => select.table

def reply (store : Store) : Request → Reply
  | apply statement => .touched ((store.apply statement).map Prod.fst)
  | query select => .found (store.query select)

/-- The store after a request, whether it failed or not. -/
def on (store : Store) : Request → Store
  | apply statement => storeAfter statement store
  | query _ => store

end Request

/-- The replies to requests that are made one after the other. -/
def replies : List Request → Store → List Reply
  | [], _ => []
  | request :: rest, store => request.reply store :: replies rest (request.on store)

/-- The store after requests in order. -/
def afterRequests (requests : List Request) (store : Store) : Store :=
  requests.foldl Request.on store

/-- Whether two stores take every write and have the same texts under the keys of a kind. -/
structure Store.AlikeOn (keys : String → Prop) (store other : Store) : Prop where
  takesWrites : store.quota = none
  takesWrites' : other.quota = none
  texts : ∀ key, keys key → store.text? key = other.text? key

theorem Store.AlikeOn.refl (keys : String → Prop) {store : Store} (h : store.quota = none) :
    store.AlikeOn keys store := ⟨h, h, fun _ _ => rfl⟩

/-! ### One request -/

namespace Request

open Store

variable {store other : Store} {request : Request} {keys : String → Prop}

theorem quota_on (h : store.quota = none) : (request.on store).quota = none := by
  cases request with
  | query select => exact h
  | apply statement =>
    simp only [on, storeAfter]
    split
    · rename_i hrun
      obtain ⟨written, rfl⟩ := exists_rewritten h hrun
      rwa [quota_rewritten]
    · exact h

/-- A request leaves all texts but that of its table. -/
theorem text?_on_ne (h : store.quota = none) {key : String} (hkey : key ≠ request.table.name) :
    (request.on store).text? key = store.text? key := by
  cases request with
  | query select => rfl
  | apply statement =>
    simp only [on, storeAfter]
    cases hrun : store.apply statement with
    | error e => rfl
    | ok result =>
      obtain ⟨written, hwritten⟩ := exists_rewritten h hrun
      simp only [hwritten]
      exact text?_rewritten_ne hkey

/-- The reply to a request and the text that it leaves hang on the text of its table alone. -/
theorem reply_congr (h : store.quota = none) (h' : other.quota = none)
    (htext : store.text? request.table.name = other.text? request.table.name) :
    request.reply store = request.reply other ∧
      (request.on store).text? request.table.name =
        (request.on other).text? request.table.name := by
  cases request with
  | query select =>
    have hrows : store.tableRows select.table = other.tableRows select.table :=
      tableRows_congr htext
    exact ⟨by simp only [reply, Store.query, hrows], htext⟩
  | apply statement =>
    by_cases hselect : ∃ s, statement = .select s
    · obtain ⟨s, rfl⟩ := hselect
      exact ⟨rfl, htext⟩
    · have hchange : ∀ s, statement ≠ .select s := fun s hs => hselect ⟨s, hs⟩
      change store.text? statement.table.name = other.text? statement.table.name at htext
      simp only [reply, on, storeAfter, table, apply_takesWrites h hchange,
        apply_takesWrites h' hchange, tableRows_congr htext]
      cases other.tableRows statement.table >>= statement.effect with
      | error e => exact ⟨rfl, htext⟩
      | ok effect => exact ⟨rfl, text?_rewritten_congr htext⟩

/-- A request on a table of a kind has the same reply where the tables of the kind are the same, and
leaves them so. -/
theorem alike (h : store.AlikeOn keys other) (hkey : keys request.table.name) :
    request.reply store = request.reply other ∧
      (request.on store).AlikeOn keys (request.on other) := by
  obtain ⟨hreply, htext⟩ := reply_congr h.takesWrites h.takesWrites' (h.texts _ hkey)
  refine ⟨hreply, quota_on h.takesWrites, quota_on h.takesWrites', fun key hkeys => ?_⟩
  by_cases hsame : key = request.table.name
  · rw [hsame, htext]
  · rw [text?_on_ne h.takesWrites hsame, text?_on_ne h.takesWrites' hsame, h.texts key hkeys]

/-- A request on another table is not noticed. -/
theorem unnoticed (h : store.AlikeOn keys other) (hkey : ¬ keys request.table.name) :
    (request.on store).AlikeOn keys other := by
  refine ⟨quota_on h.takesWrites, h.takesWrites', fun key hkeys => ?_⟩
  have hne : key ≠ request.table.name := by
    rintro rfl
    exact hkey hkeys
  rw [text?_on_ne h.takesWrites hne, h.texts key hkeys]

end Request

/-! ### Two lists of requests -/

/-- The items with a mark in a list in which two lists are mixed, in their order. -/
def marked {α : Type} (mark : Bool) (mixed : List (Bool × α)) : List α :=
  (mixed.filter (·.1 = mark)).map Prod.snd

/-- The replies to mixed requests, each with the mark of its request. -/
def mixedReplies : List (Bool × Request) → Store → List (Bool × Reply)
  | [], _ => []
  | (mark, request) :: rest, store =>
    (mark, request.reply store) :: mixedReplies rest (request.on store)

/-- The store after mixed requests. -/
def afterMixed (mixed : List (Bool × Request)) (store : Store) : Store :=
  afterRequests (mixed.map Prod.snd) store

variable {first second : List Request} {mixed : List (Bool × Request)} {store other : Store}
  {keys : String → Prop}

/-- Requests with one mark have the replies that they have without the others, as long as these are
on other tables. -/
theorem marked_alike (mark : Bool) (h : store.AlikeOn keys other)
    (hkeys : ∀ item ∈ mixed, keys item.2.table.name ↔ item.1 = mark) :
    marked mark (mixedReplies mixed store) = replies (marked mark mixed) other ∧
      (afterMixed mixed store).AlikeOn keys (afterRequests (marked mark mixed) other) := by
  induction mixed generalizing store other with
  | nil => exact ⟨rfl, h⟩
  | cons item rest ih =>
    obtain ⟨itemMark, request⟩ := item
    obtain ⟨hitem, hrest⟩ := List.forall_mem_cons.mp hkeys
    by_cases hmark : itemMark = mark
    · subst hmark
      obtain ⟨hreply, hafter⟩ := Request.alike h (hitem.mpr rfl)
      obtain ⟨hreplies, hend⟩ := ih hafter hrest
      have hmarked : marked itemMark ((itemMark, request) :: rest) =
          request :: marked itemMark rest := by simp [marked]
      rw [hmarked]
      refine ⟨?_, hend⟩
      rw [replies, ← hreplies, ← hreply]
      simp [mixedReplies, marked]
    · obtain ⟨hreplies, hend⟩ := ih (Request.unnoticed h (mt hitem.mp hmark)) hrest
      have hmarked : marked mark ((itemMark, request) :: rest) = marked mark rest := by
        simp [marked, hmark]
      rw [hmarked]
      refine ⟨?_, hend⟩
      rw [← hreplies]
      simp [mixedReplies, marked, hmark]

theorem mem_marked {mark : Bool} {request : Request} :
    request ∈ marked mark mixed ↔ (mark, request) ∈ mixed := by
  simp [marked]

/-- Every request of the first list stands in front of every one of the second. -/
def inTurn (first second : List Request) : List (Bool × Request) :=
  first.map (true, ·) ++ second.map (false, ·)

theorem marked_inTurn (first second : List Request) :
    marked true (inTurn first second) = first ∧ marked false (inTurn first second) = second := by
  simp [marked, inTurn, List.filter_map, Function.comp_def]

theorem afterMixed_inTurn (first second : List Request) (store : Store) :
    afterMixed (inTurn first second) store = afterRequests (first ++ second) store := by
  simp [afterMixed, inTurn, Function.comp_def]

/-- The keys of the tables of the second list, and all other keys. -/
def KeyOf (second : List Request) (mark : Bool) (key : String) : Prop :=
  (∃ request ∈ second, request.table.name = key) ↔ mark = false

theorem exists_keyOf (second : List Request) (key : String) : ∃ mark, KeyOf second mark key := by
  by_cases h : ∃ request ∈ second, request.table.name = key
  · exact ⟨false, iff_of_true h rfl⟩
  · exact ⟨true, iff_of_false h (by simp)⟩

section Mixed

variable (hdisjoint : ∀ a ∈ first, ∀ b ∈ second, a.table ≠ b.table)
  (hfirst : marked true mixed = first) (hsecond : marked false mixed = second)

include hdisjoint hfirst hsecond

theorem keyOf_iff (mark : Bool) :
    ∀ item ∈ mixed, KeyOf second mark item.2.table.name ↔ item.1 = mark := by
  subst hfirst hsecond
  rintro ⟨itemMark, request⟩ hitem
  have htable : (∃ b ∈ marked false mixed, b.table.name = request.table.name) ↔
      itemMark = false := by
    cases itemMark with
    | false => exact iff_of_true ⟨request, mem_marked.mpr hitem, rfl⟩ rfl
    | true =>
      refine iff_of_false ?_ (by simp)
      rintro ⟨b, hb, hname⟩
      exact hdisjoint request (mem_marked.mpr hitem) b hb (Table.name_injective hname).symm
  unfold KeyOf
  rw [htable]
  cases itemMark <;> cases mark <;> simp

theorem mixed_alike (h : store.quota = none) (mark : Bool) :
    marked mark (mixedReplies mixed store) = replies (marked mark mixed) store ∧
      (afterMixed mixed store).AlikeOn (KeyOf second mark)
        (afterRequests (marked mark mixed) store) :=
  marked_alike mark (.refl _ h) (keyOf_iff hdisjoint hfirst hsecond mark)

end Mixed

/-- Two lists of requests that have no table in common can be mixed in any way: each request has the
reply that it has when its list is made alone, and every text is in the end what it is when one list
is made after the other. -/
theorem mixed_independent (hdisjoint : ∀ a ∈ first, ∀ b ∈ second, a.table ≠ b.table)
    (hfirst : marked true mixed = first) (hsecond : marked false mixed = second)
    (h : store.quota = none) :
    marked true (mixedReplies mixed store) = replies first store ∧
      marked false (mixedReplies mixed store) = replies second store ∧
      ∀ key, (afterMixed mixed store).text? key =
        (afterRequests (first ++ second) store).text? key := by
  have hmixed := mixed_alike hdisjoint hfirst hsecond h
  obtain ⟨hfirst', hsecond'⟩ := marked_inTurn first second
  have hturn := mixed_alike hdisjoint hfirst' hsecond' h
  refine ⟨hfirst ▸ (hmixed true).1, hsecond ▸ (hmixed false).1, fun key => ?_⟩
  obtain ⟨mark, hmark⟩ := exists_keyOf second key
  have hsame : marked mark mixed = marked mark (inTurn first second) := by
    cases mark with
    | true => rw [hfirst, hfirst']
    | false => rw [hsecond, hsecond']
  rw [(hmixed mark).2.texts key hmark, hsame, ← (hturn mark).2.texts key hmark, afterMixed_inTurn]

/-- A planner whose notes are a text that was cut off. -/
def tornNotes : Store := ⟨[("notes", "[")], none⟩

/-- A task is added and the tasks are listed, while the notes are neither deleted nor listed, since
both fails. -/
def mixing : List (Bool × Request) := [
  (false, .apply (.delete .notes none)),
  (true, .apply (.insert .tasks ["id"] [.text "a"] .append)),
  (false, .query (.everything .notes)),
  (true, .query (.everything .tasks))]

theorem mixed_independent_mixing :
    marked true (mixedReplies mixing tornNotes) = replies (marked true mixing) tornNotes ∧
      marked false (mixedReplies mixing tornNotes) = replies (marked false mixing) tornNotes ∧
      (afterMixed mixing tornNotes).text? "tasks" =
        (afterRequests (marked true mixing ++ marked false mixing) tornNotes).text? "tasks" := by
  have hdisjoint : ∀ a ∈ marked true mixing, ∀ b ∈ marked false mixing, a.table ≠ b.table := by
    simp [marked, mixing, Request.table, Statement.table, Select.everything]
  obtain ⟨hfirst, hsecond, htexts⟩ :=
    mixed_independent hdisjoint rfl rfl (show tornNotes.quota = none from rfl)
  exact ⟨hfirst, hsecond, htexts "tasks"⟩

end Planner

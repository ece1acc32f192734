import Planner.Proofs.Store.Backend

/-! A table that was written: which rows are read under its name, and under every other name. -/
namespace Planner.Store

open Json

variable {name other : String} {rows : List Record} {store store' : Store}

theorem text?_setRows (hrun : store.setRows name rows = .ok store') (key : String) :
    store'.text? key = if key = name then some (textOfRows rows) else store.text? key := by
  split_ifs with hkey
  · rw [hkey, text?, put_texts hrun, lookup_putText_self]
  · rw [text?, put_texts hrun, lookup_putText_ne hkey]
    rfl

theorem rows_setRows_self (hrun : store.setRows name rows = .ok store') :
    store'.rows name = rowsOfText name (textOfRows rows) := by
  simp only [Store.rows, text?_setRows hrun, if_true]

theorem rows_setRows_ne (hrun : store.setRows name rows = .ok store') (h : other ≠ name) :
    store'.rows other = store.rows other := by
  simp only [Store.rows, text?_setRows hrun, if_neg h]

/-- A text under any name is read back as the rows that were written there, their doubles read anew,
unless lists and objects stand too deep in one of them. -/
theorem rows_setRows_reread (hrun : store.setRows name rows = .ok store')
    (hsorted : ∀ row ∈ rows, (Json.object row).Sorted) :
    store'.rows name = if ∀ row ∈ rows, depthFields row ≤ rowDepth then .ok (rows.map rereadFields)
      else .error (.notJson name .tooDeep) := by
  rw [rows_setRows_self hrun, rowsOfText_textOfRows name hsorted]

/-- Rows that were written under a name are read there as they are, or the text is refused if lists
and objects stand more than 125 deep in a field of one; under every other name nothing changes. -/
theorem rows_setRows (hrun : store.setRows name rows = .ok store')
    (hsorted : ∀ row ∈ rows, (Json.object row).Sorted) (hdoubles : ∀ row ∈ rows, ReadsBack row) :
    store'.rows name = (if ∀ row ∈ rows, ∀ field ∈ row, field.2.depth ≤ 125 then .ok rows
      else .error (.notJson name .tooDeep)) ∧
    ∀ other, other ≠ name → store'.rows other = store.rows other := by
  have hread := rows_setRows_reread hrun hsorted
  have hsame : rows.map rereadFields = rows :=
    (List.map_congr_left (g := id) fun row hrow => (hdoubles row hrow).reread_eq).trans
      (List.map_id _)
  simp only [depthFields_le_iff, hsame] at hread
  exact ⟨hread, fun other hother => rows_setRows_ne hrun hother⟩

/-- A host that takes one more write, with a text that is no list of rows. -/
def shelf : Store := ⟨[("notes", "[1]")], some ⟨1, "full"⟩⟩

/-- The greatest and the least integer, a quarter, control characters and quotes, and empty
lists and objects around each other. -/
def oddments : Record := [
  ("", .list [.number (.integer ⟨0xFFFFFFFFFFFFFFFF, by decide⟩),
    .number (.integer ⟨-0x8000000000000000, by decide⟩)]),
  ("a\"\\", .text "\x00\x1f\t\"\\/\u2028😀"),
  ("b", .number (.double ⟨false, 0x3FD0000000000000, by decide⟩)),
  ("c", .object [("x", .list []), ("y", .object [])])]

/-- A value with so many lists around it. -/
def nested (value : Json) : Nat → Json
  | 0 => value
  | levels + 1 => .list [nested value levels]

theorem depth_nested (value : Json) (levels : Nat) :
    (nested value levels).depth = value.depth + levels := by
  induction levels with
  | zero => rfl
  | succ levels ih => simp [nested, depth, depthList, ih, Nat.add_assoc]

theorem sorted_nested {value : Json} (h : value.Sorted) (levels : Nat) :
    (nested value levels).Sorted := by
  induction levels with
  | zero => exact h
  | succ levels ih => exact ⟨ih, trivial⟩

theorem doubles_nested (value : Json) (levels : Nat) :
    (nested value levels).doubles = value.doubles := by
  induction levels with
  | zero => rfl
  | succ levels ih => simp [nested, doubles, doublesList, ih]

theorem rows_setRows_oddments :
    (∃ store', shelf.setRows "tasks" [oddments] = .ok store' ∧
      store'.rows "tasks" = .ok [oddments] ∧ store'.rows "notes" = shelf.rows "notes") ∧
    ∃ store', shelf.setRows "tasks" [[("id", nested .null 126)]] = .ok store' ∧
      store'.rows "tasks" = .error (.notJson "tasks" .tooDeep) := by
  constructor
  · have houter : Record.Ordered oddments := by
      unfold oddments Record.Ordered
      decide
    have hinner : Record.Ordered [("x", .list []), ("y", .object [])] := by
      unfold Record.Ordered
      decide
    have hempty : Record.Ordered [] := List.Pairwise.nil
    have hsorted : (Json.object oddments).Sorted :=
      ⟨houter, by simp [oddments, SortedFields, SortedList, Sorted, hinner, hempty]⟩
    have hdoubles : ReadsBack oddments := by
      have hx : ∀ x ∈ doublesFields oddments, x.reread = x := by decide +kernel
      exact hx
    obtain ⟨hself, hother⟩ := rows_setRows (show shelf.setRows "tasks" _ = .ok _ from rfl)
      (List.forall_mem_singleton.mpr hsorted) (List.forall_mem_singleton.mpr hdoubles)
    rw [if_pos (by decide)] at hself
    exact ⟨_, rfl, hself, hother "notes" (by decide)⟩
  · have hsorted : (Json.object [("id", nested .null 126)]).Sorted :=
      ⟨List.pairwise_singleton _ _, sorted_nested (show Json.null.Sorted from trivial) 126, trivial⟩
    have hdoubles : ReadsBack [("id", nested .null 126)] := by
      simp [ReadsBack, doublesFields, doubles_nested, doubles]
    obtain ⟨hself, -⟩ := rows_setRows (show shelf.setRows "tasks" _ = .ok _ from rfl)
      (List.forall_mem_singleton.mpr hsorted) (List.forall_mem_singleton.mpr hdoubles)
    rw [if_neg (by simp [depth_nested, depth])] at hself
    exact ⟨_, rfl, hself⟩

end Planner.Store

import Planner.Proofs.Json.Number
import Planner.Proofs.Json.Record

/-! Values whose objects are in order, and what becomes of a value that is written and read. -/
namespace Planner.Json

/-- Induction over a value: over the items of lists and the fields of objects. -/
@[elab_as_elim]
theorem induct {P : Json → Prop} (null : P .null) (bool : ∀ b, P (.bool b))
    (number : ∀ n, P (.number n)) (text : ∀ s, P (.text s))
    (list : ∀ items, (∀ item ∈ items, P item) → P (.list items))
    (object : ∀ fields, (∀ field ∈ fields, P field.2) → P (.object fields)) :
    ∀ value, P value
  | .null => null
  | .bool b => bool b
  | .number n => number n
  | .text s => text s
  | .list items => list items fun item h =>
    have := List.sizeOf_lt_of_mem h
    induct null bool number text list object item
  | .object fields => object fields fun (key, value) h =>
    have := List.sizeOf_lt_of_mem h
    induct null bool number text list object value
termination_by value => sizeOf value
decreasing_by all_goals simp_all; omega

mutual

/-- Whether the fields of every object stand in the strict order of their names. -/
def Sorted : Json → Prop
  | .list items => SortedList items
  | .object fields => Record.Ordered fields ∧ SortedFields fields
  | .null | .bool _ | .number _ | .text _ => True

def SortedList : List Json → Prop
  | [] => True
  | item :: rest => Sorted item ∧ SortedList rest

def SortedFields : Record → Prop
  | [] => True
  | (_, value) :: rest => Sorted value ∧ SortedFields rest

end

mutual

/-- The value that the text of a value is read back as: every double is read anew. -/
def reread : Json → Json
  | .number n => .number n.reread
  | .list items => .list (rereadList items)
  | .object fields => .object (rereadFields fields)
  | .null => .null
  | .bool b => .bool b
  | .text s => .text s

def rereadList : List Json → List Json
  | [] => []
  | item :: rest => reread item :: rereadList rest

def rereadFields : Record → Record
  | [] => []
  | (key, value) :: rest => (key, reread value) :: rereadFields rest

end

mutual

/-- The doubles that occur in a value. -/
def doubles : Json → List Double
  | .number (.double x) => [x]
  | .list items => doublesList items
  | .object fields => doublesFields fields
  | .null | .bool _ | .number (.integer _) | .text _ => []

def doublesList : List Json → List Double
  | [] => []
  | item :: rest => doubles item ++ doublesList rest

def doublesFields : Record → List Double
  | [] => []
  | (_, value) :: rest => doubles value ++ doublesFields rest

end

theorem sortedList_iff {items : List Json} : SortedList items ↔ ∀ item ∈ items, item.Sorted := by
  induction items with
  | nil => simp [SortedList]
  | cons item rest ih => simp [SortedList, ih]

theorem sortedFields_iff {fields : Record} :
    SortedFields fields ↔ ∀ field ∈ fields, field.2.Sorted := by
  induction fields with
  | nil => simp [SortedFields]
  | cons field rest ih => simp [SortedFields, ih]

theorem rereadList_eq_map (items : List Json) : rereadList items = items.map reread := by
  induction items with
  | nil => rfl
  | cons item rest ih => simp [rereadList, ih]

theorem rereadFields_eq_map (fields : Record) :
    rereadFields fields = fields.map fun field => (field.1, field.2.reread) := by
  induction fields with
  | nil => rfl
  | cons field rest ih => simp [rereadFields, ih]

theorem depthList_le_iff {items : List Json} {levels : Nat} :
    depthList items ≤ levels ↔ ∀ item ∈ items, item.depth ≤ levels := by
  induction items with
  | nil => simp [depthList]
  | cons item rest ih => simp [depthList, ih]

theorem depthFields_le_iff {fields : Record} {levels : Nat} :
    depthFields fields ≤ levels ↔ ∀ field ∈ fields, field.2.depth ≤ levels := by
  induction fields with
  | nil => simp [depthFields]
  | cons field rest ih => simp [depthFields, ih]

theorem reread_eq_text_iff {value : Json} {s : String} : value.reread = .text s ↔ value = .text s := by
  cases value <;> simp [reread]

theorem ordered_rereadFields {fields : Record} (h : Record.Ordered fields) :
    Record.Ordered (rereadFields fields) := by
  rw [rereadFields_eq_map]
  exact List.pairwise_map.mpr h

theorem sorted_reread {value : Json} : value.Sorted → value.reread.Sorted := by
  induction value using induct with
  | null | bool | number | text => exact id
  | list items ih =>
    simp only [reread, Sorted, sortedList_iff, rereadList_eq_map, List.forall_mem_map]
    exact fun h item hi => ih item hi (h item hi)
  | object fields ih =>
    intro h
    refine ⟨ordered_rereadFields h.1, ?_⟩
    simp only [sortedFields_iff, rereadFields_eq_map, List.forall_mem_map]
    exact fun field hf => ih field hf (sortedFields_iff.mp h.2 field hf)

@[simp] theorem depth_reread (value : Json) : value.reread.depth = value.depth := by
  induction value using induct with
  | null | bool | number | text => rfl
  | list items ih =>
    simp only [reread, depth]
    induction items with
    | nil => rfl
    | cons item rest irest =>
      obtain ⟨hitem, hrest⟩ := List.forall_mem_cons.mp ih
      simp only [rereadList, depthList, hitem, Nat.add_right_cancel (irest hrest)]
  | object fields ih =>
    simp only [reread, depth]
    induction fields with
    | nil => rfl
    | cons field rest irest =>
      obtain ⟨hfield, hrest⟩ := List.forall_mem_cons.mp ih
      simp only [rereadFields, depthFields, hfield, Nat.add_right_cancel (irest hrest)]

theorem mem_doublesList {x : Double} {items : List Json} :
    x ∈ doublesList items ↔ ∃ item ∈ items, x ∈ item.doubles := by
  induction items with
  | nil => simp [doublesList]
  | cons item rest ih => simp [doublesList, ih]

theorem mem_doublesFields {x : Double} {fields : Record} :
    x ∈ doublesFields fields ↔ ∃ field ∈ fields, x ∈ field.2.doubles := by
  induction fields with
  | nil => simp [doublesFields]
  | cons field rest ih => simp [doublesFields, ih]

theorem rereadFields_eq_self {fields : Record} (h : ∀ field ∈ fields, field.2.reread = field.2) :
    rereadFields fields = fields := by
  rw [rereadFields_eq_map]
  refine (List.map_congr_left (g := id) fun field hf => ?_).trans (List.map_id _)
  exact Prod.ext rfl (h field hf)

/-- A row of which every double is read back as itself. -/
def ReadsBack (row : Record) : Prop := ∀ x ∈ doublesFields row, x.reread = x

/-- A value stays as it is when all of its doubles are read back as themselves. -/
theorem reread_eq_self {value : Json} :
    (∀ x ∈ value.doubles, x.reread = x) → value.reread = value := by
  induction value using induct with
  | null | bool | text => exact fun _ => rfl
  | number n =>
    cases n with
    | integer n => exact fun _ => rfl
    | double x =>
      intro h
      rw [reread, Number.reread, h x (List.mem_singleton.mpr rfl)]
  | list items ih =>
    intro h
    rw [reread, rereadList_eq_map]
    refine congrArg _ ((List.map_congr_left (g := id) fun item hi => ?_).trans (List.map_id _))
    exact ih item hi fun x hx => h x (mem_doublesList.mpr ⟨item, hi, hx⟩)
  | object fields ih =>
    intro h
    rw [reread, rereadFields_eq_self fun field hf =>
      ih field hf fun x hx => h x (mem_doublesFields.mpr ⟨field, hf, hx⟩)]

theorem ReadsBack.reread_eq {row : Record} (h : ReadsBack row) : rereadFields row = row :=
  rereadFields_eq_self fun field hf =>
    reread_eq_self fun x hx => h x (mem_doublesFields.mpr ⟨field, hf, hx⟩)

end Planner.Json

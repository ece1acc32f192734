import Planner.Proofs.Json.Spacing

/-! What is written is read back, unless it is deeper than the reader goes. -/
namespace Planner.Json

open Numeral (Ends)

variable {sp : Spacing} {gap rest : List Char} {levels : Nat}

/-- What is read where a value was written: too deep a value is refused. -/
def readAs (levels : Nat) (value : Json) : Except Fault Json :=
  if value.depth ≤ levels then .ok value.reread else .error .tooDeep

def readRecordAs (levels : Nat) (fields : Record) : Except Fault Record :=
  if depthFields fields ≤ levels then .ok (rereadFields fields) else .error .tooDeep

theorem mapM_readAs (levels : Nat) (items : List Json) :
    items.mapM (readAs levels) =
      if depthList items ≤ levels then .ok (rereadList items) else .error .tooDeep := by
  induction items with
  | nil => rfl
  | cons item rest ih =>
    rw [List.mapM_cons, ih]
    simp only [readAs, depthList, max_le_iff]
    by_cases hitem : item.depth ≤ levels <;> by_cases hrest : depthList rest ≤ levels <;>
      simp [hitem, hrest, bind, Except.bind, pure, Except.pure, rereadList]

/-- One field that was read is set in the record. -/
def setRead (levels : Nat) (record : Record) (field : String × Json) : Except Fault Record :=
  (readAs levels field.2).map (record.set field.1 ·)

theorem foldlM_setRead (levels : Nat) (fields record : Record) :
    fields.foldlM (setRead levels) record =
      if depthFields fields ≤ levels then
        .ok ((rereadFields fields).foldl (fun record field => record.set field.1 field.2) record)
      else .error .tooDeep := by
  induction fields generalizing record with
  | nil => rfl
  | cons field rest ih =>
    rw [List.foldlM_cons]
    simp only [setRead, readAs, depthFields, max_le_iff]
    by_cases hfield : field.2.depth ≤ levels <;> by_cases hrest : depthFields rest ≤ levels <;>
      simp [hfield, hrest, ih, bind, Except.bind, Except.map, rereadFields]

theorem foldlM_setRead_sorted {fields : Record} (h : Record.Ordered fields) (levels : Nat) :
    fields.foldlM (setRead levels) [] = readRecordAs levels fields := by
  rw [foldlM_setRead, readRecordAs]
  split_ifs
  · exact congrArg _ (Record.ofFields_of_ordered (ordered_rereadFields h))
  · rfl

section Start

variable {onList onObject : Reader Json}

theorem readValueWith_gap (hg : Blank gap) :
    readValueWith onList onObject (gap ++ rest) = readValueWith onList onObject rest := by
  unfold readValueWith
  rw [skipSpace_append hg]

theorem readValueWith_number (n : Number) (hr : Ends rest) :
    readValueWith onList onObject (n.toText ++ rest) = .ok (.number n.reread, rest) := by
  obtain ⟨c, cs, htext, hc⟩ := number_head n
  have hread := readNumber_toText n hr
  rw [htext, List.cons_append] at hread ⊢
  have hstart : isNumberStart c = true := by
    rcases hc with rfl | hc
    · rfl
    · simp [isNumberStart, hc]
  have hother : ∀ d, isNumberStart d = false → c ≠ d := by
    rintro d hd rfl
    simp [hstart] at hd
  have hspace : isSpace c = false := by
    simp [isSpace, hother ' ' rfl, hother '\t' rfl, hother '\n' rfl, hother '\r' rfl]
  unfold readValueWith
  rw [skipSpace_cons hspace]
  simp only [hother 'n' rfl, hother 't' rfl, hother 'f' rfl, hother '"' rfl, hother '[' rfl,
    hother '\x7b' rfl, hstart, if_false, if_true, hread]
  rfl

end Start

theorem readValue_gap (hg : Blank gap) :
    readValue levels (gap ++ rest) = readValue levels rest := by
  cases levels <;> exact readValueWith_gap hg

theorem starts_spaced (sp : Spacing) (level : Nat) (value : Json) :
    Starts (spaced sp level value) := by
  cases value with
  | null => exact ⟨'n', _, rfl, by decide, by decide⟩
  | bool b => cases b <;> exact ⟨_, _, rfl, by decide, by decide⟩
  | number n =>
    obtain ⟨c, cs, htext, hc⟩ := number_head n
    have hne : ∀ d, d ≠ '-' → d.isDigit = false → c ≠ d := by
      rintro d hminus hdigit rfl
      rcases hc with hc | hc
      · exact hminus hc
      · rw [hdigit] at hc
        cases hc
    refine ⟨c, cs, htext, ?_, hne ']' (by decide) (by decide)⟩
    simp [isSpace, hne ' ' (by decide) (by decide), hne '\t' (by decide) (by decide),
      hne '\n' (by decide) (by decide), hne '\r' (by decide) (by decide)]
  | text s => exact ⟨'"', _, rfl, by decide, by decide⟩
  | list items => exact ⟨'[', _, rfl, by decide, by decide⟩
  | object fields => exact ⟨'\x7b', _, rfl, by decide, by decide⟩

theorem readColon_cons (s : List Char) : readColon (':' :: s) = .ok s := rfl

section Values

variable {level : Nat}

/-- A field is read back when its value is. -/
theorem reads_field {value : Reader Json} {field : String × Json} (record : Record)
    (hgap : ∀ gap, Blank gap → ∀ s, value (gap ++ s) = value s)
    (h : Reads value (spaced sp level field.2) (readAs levels field.2)) :
    Reads
      (fun s => do
        let s ← readColon s
        let (value, s) ← value s
        return (record.set field.1 value, s))
      (fieldBody sp level field) (setRead levels record field) := by
  intro rest hr
  have hvalue := h rest hr
  simp only [fieldBody, List.cons_append, readColon_cons, bind, Except.bind, List.append_assoc,
    hgap _ sp.colon_blank, hvalue, setRead]
  cases readAs levels field.2 <;> rfl

/-- The fields of an object are read back when their values are. -/
theorem readRecord_listed {value : Reader Json} {fields : Record} {outer : List Char}
    (ho : Blank outer) (hgap : ∀ gap, Blank gap → ∀ s, value (gap ++ s) = value s)
    (hf : Record.Ordered fields)
    (h : ∀ field ∈ fields, Reads value (spaced sp level field.2) (readAs levels field.2)) :
    readRecord value (listed '}' (sp.line level) outer (spacedFields sp level fields) ++ rest) =
      (readRecordAs levels fields).map (·, rest) := by
  have hread := fun field hfield record => reads_field record hgap (h field hfield)
  rw [spacedFields_eq_map, readRecord, readFields_listed (sp.line_blank level) ho hread,
    foldlM_setRead_sorted hf]

/-- A value that is written with any spaces is read back, with its doubles read anew. -/
theorem reads_spaced (value : Json) (hv : value.Sorted) :
    ∀ levels level, Reads (readValue levels) (spaced sp level value) (readAs levels value) := by
  induction value using induct with
  | null =>
    intro levels level rest hr
    cases levels <;> rfl
  | bool b =>
    intro levels level rest hr
    cases levels <;> cases b <;> rfl
  | number n =>
    intro levels level rest hr
    cases levels <;> exact readValueWith_number n hr
  | text s =>
    intro levels level rest hr
    have hquote : quote s ++ rest = '"' :: (s.toList.flatMap escapeChar ++ '"' :: rest) := by
      simp [quote]
    cases levels
    all_goals
      simp only [spaced, hquote, readValue, readValueWith, skipSpace_cons (c := '"') (by decide)]
      simp [readQuoted_quote, bind, Except.bind, pure, Except.pure, readAs, depth, reread,
        Except.map]
  | list items ih =>
    intro levels level rest hr
    cases levels with
    | zero => rfl
    | succ levels =>
      have hitems : readItems (readValue levels) (listed ']' _ _ _ ++ rest) = _ :=
        readItems_listed (sp.line_blank (level + 1)) (sp.line_blank level)
        (fun item _ => starts_spaced sp (level + 1) item)
        (fun item hi => ih item hi (sortedList_iff.mp hv item hi) levels (level + 1))
      rw [← spacedItems_eq_map, mapM_readAs] at hitems
      simp only [spaced, List.cons_append, readValue, readValueWith,
        skipSpace_cons (c := '[') (by decide)]
      simp only [Char.reduceEq, if_false, if_true, hitems, readAs, depth, Nat.add_le_add_iff_right]
      split_ifs <;> rfl
  | object fields ih =>
    intro levels level rest hr
    cases levels with
    | zero => rfl
    | succ levels =>
      have hfields : readRecord (readValue levels) (listed '}' (sp.line (level + 1)) _ _ ++ rest) = _ :=
        readRecord_listed (sp.line_blank level) (fun _ hg _ => readValue_gap hg) hv.1
        (fun field hf => ih field hf (sortedFields_iff.mp hv.2 field hf) levels (level + 1))
      simp only [spaced, List.cons_append, readValue, readValueWith,
        skipSpace_cons (c := '\x7b') (by decide)]
      simp only [Char.reduceEq, if_false, if_true, hfields, readAs, readRecordAs, depth,
        Nat.add_le_add_iff_right]
      split_ifs <;> rfl

end Values

theorem ofWhole_reads {α : Type} {reader : Reader α} {text : List Char}
    {result : Except Fault α} (h : Reads reader text result) :
    ofWhole reader (String.ofList text) = result := by
  have htext := h [] (by simp [Ends])
  rw [List.append_nil] at htext
  unfold ofWhole
  rw [String.toList_ofList, htext]
  cases result <;> rfl

/-- The text of a list is read back, unless it is too deep. -/
theorem readList_toText {items : List Json} (h : SortedList items) :
    readList (Json.list items).toText =
      if depthList items ≤ depthLimit - 1 then .ok (rereadList items) else .error .tooDeep := by
  have hreads : Reads (readListOf (readValue (depthLimit - 1))) (Json.list items).render
      (items.mapM (readAs (depthLimit - 1))) := by
    intro rest hr
    have hitems : readItems (readValue (depthLimit - 1)) (listed ']' _ _ _ ++ rest) = _ :=
      readItems_listed (Spacing.compact.line_blank 1) (Spacing.compact.line_blank 0)
      (fun item _ => starts_spaced .compact 1 item)
      (fun item hi => reads_spaced item (sortedList_iff.mp h item hi) _ 1)
    rw [← spacedItems_eq_map] at hitems
    rw [render_eq_spaced _ 0, spaced, List.cons_append, readListOf,
      skipSpace_cons (c := '[') (by decide)]
    exact hitems
  rw [readList, toText, ofWhole_reads hreads, mapM_readAs]

theorem readText_reads {sp : Spacing} {level : Nat} (s : String) :
    Reads readText (spaced sp level (.text s)) (.ok s) := by
  intro rest hr
  have hquote : spaced sp level (.text s) ++ rest =
      '"' :: (s.toList.flatMap escapeChar ++ '"' :: rest) := by
    simp [spaced, quote]
  rw [hquote, readText, skipSpace_cons (by decide)]
  exact readQuoted_quote s

/-- The text of a list of texts is read back. -/
theorem readTexts_toText (texts : List String) :
    readTexts (Json.list (texts.map .text)).toText = .ok texts := by
  have hreads : Reads (readListOf readText) (Json.list (texts.map .text)).render (.ok texts) := by
    intro rest hr
    have hitems : readItems readText (listed ']' _ _
        (texts.map fun s => spaced .compact 1 (.text s)) ++ rest) = _ :=
      readItems_listed (Spacing.compact.line_blank 1) (Spacing.compact.line_blank 0)
        (fun s _ => starts_spaced .compact 1 (.text s)) fun s _ => readText_reads s
    have hall : texts.mapM (fun s => (.ok s : Except Fault String)) = .ok texts :=
      (List.mapM_pure (f := id)).trans (congrArg Except.ok (List.map_id texts))
    have hmap : spacedItems .compact 1 (texts.map .text) =
        texts.map fun s => spaced .compact 1 (.text s) := by
      rw [spacedItems_eq_map, List.map_map]
      rfl
    rw [hall, ← hmap] at hitems
    rw [render_eq_spaced _ 0, spaced, List.cons_append, readListOf,
      skipSpace_cons (c := '[') (by decide)]
    exact hitems
  exact ofWhole_reads hreads

end Planner.Json

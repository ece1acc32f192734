import Planner.Preferences
import Planner.Proofs.Entity.Reading
import Planner.Proofs.Legible
import Planner.Proofs.Store.Deletion
import Planner.Proofs.Store.Writing

/-! What is reported of a setting that was set. It is put in the place of the first row with its key,
and of the rows that give a text for it the last counts. -/
namespace Planner

open Json (Fault)
open Outcome

/-! ### Settings as texts -/

/-- A field of a row with different names is found by its name. -/
theorem Record.get?_of_mem {record : Record} {name : String} {value : Json} (h : record.Ordered)
    (hmem : (name, value) ∈ record) : record.get? name = some value := by
  induction record with
  | nil => cases hmem
  | cons head rest ih =>
    obtain ⟨key, old⟩ := head
    obtain ⟨hhead, hrest⟩ := List.pairwise_cons.mp h
    unfold get?
    rcases List.mem_cons.mp hmem with hsame | hmem
    · cases hsame
      rw [if_pos rfl]
    · have hlt : key < name := hhead (name, value) hmem
      rw [if_neg (String.ne_of_lt hlt), ih hrest hmem]

/-- What a setting is that no row gives a text for. -/
def SettingKey.absent : SettingKey → String
  | .theme => Choice.name Theme.light
  | .colorScheme => "blue"

/-- The text of a setting. -/
def Settings.text (settings : Settings) : SettingKey → String
  | .theme => Choice.name settings.theme
  | .colorScheme => settings.colorScheme

instance : Named Theme := ⟨by rintro (_ | _) <;> rfl⟩

theorem read_text_iff {α : Type} [Choice α] [Named α] {text : String} {a : α} :
    (Choice.read (.text text) : Except Fault α) = .ok a ↔ Choice.name a = text := by
  constructor
  · intro h
    have hsame : Json.text text = .text (Choice.name a) := Choice.eq_text_name rfl h
    exact (Json.text.inj hsame).symm
  · rintro rfl
    exact read_name a

theorem asText_text_iff {text s : String} : Json.asText (.text text) = .ok s ↔ s = text :=
  ⟨fun h => (Except.ok.inj h).symm, fun h => congrArg Except.ok h.symm⟩

/-- A column of texts, each of which is read as what it is called. -/
theorem Record.optional_text_iff {α : Type} {record : Record} {name : String} {absent a : α}
    {read : Json → Except Fault α} {label : α → String} (hlabel : Function.Injective label)
    (hread : ∀ text a, read (.text text) = .ok a ↔ label a = text) {text? : Option String}
    (hget : record.get? name = text?.map Json.text) :
    record.optional name absent read = .ok a ↔ label a = text?.getD (label absent) := by
  unfold Record.optional
  rw [hget]
  cases text? with
  | none =>
    constructor
    · intro h
      exact congrArg label (Except.ok.inj h).symm
    · intro h
      exact congrArg Except.ok (hlabel h).symm
  | some text => exact hread text a

namespace Settings

variable {record : Record} {text? : String → Option String} {settings : Settings}

theorem ofRow_texts_iff (hget : ∀ name, record.get? name = (text? name).map Json.text) :
    ofRow record = .ok settings ↔
      ∀ key : SettingKey, settings.text key = (text? key.name).getD key.absent := by
  have htheme : ∀ theme : Theme, record.optional "theme" .light Choice.read = .ok theme ↔
      Choice.name theme = (text? "theme").getD (Choice.name Theme.light) :=
    fun _ => Record.optional_text_iff Choice.name_injective (fun _ _ => read_text_iff)
      (hget "theme")
  have hscheme : ∀ scheme, record.optional "colorScheme" "blue" Json.asText = .ok scheme ↔
      scheme = (text? "colorScheme").getD "blue" :=
    fun _ => Record.optional_text_iff Function.injective_id (fun _ _ => asText_text_iff)
      (hget "colorScheme")
  constructor
  · intro h key
    obtain ⟨theme, hread, h⟩ := bind_eq_ok.mp h
    obtain ⟨scheme, hread', h⟩ := bind_eq_ok.mp h
    cases h
    cases key with
    | theme => exact (htheme theme).mp hread
    | colorScheme => exact (hscheme scheme).mp hread'
  · intro h
    exact bind_eq_ok.mpr ⟨_, (htheme _).mpr (h .theme),
      bind_eq_ok.mpr ⟨_, (hscheme _).mpr (h .colorScheme), rfl⟩⟩

/-- Every field passes the check of its column when the settings are read from texts. -/
theorem accepts_of_texts (hordered : record.Ordered)
    (hget : ∀ name, record.get? name = (text? name).map Json.text)
    (h : ∀ key : SettingKey, settings.text key = (text? key.name).getD key.absent) :
    ∀ field ∈ record, layout.Accepts field := by
  rintro ⟨name, value⟩ hfield column hcolumn
  change layout.columns.find? (·.name = name) = some column at hcolumn
  have hvalue := hget name ▸ Record.get?_of_mem hordered hfield
  obtain ⟨text, htext, rfl⟩ := Option.map_eq_some_iff.mp hvalue
  have hfound := List.find?_some hcolumn
  have hname : column.name = name := of_decide_eq_true hfound
  have hmem : column ∈ layout.columns := List.mem_of_find?_eq_some hcolumn
  rcases List.mem_pair.mp hmem with rfl | rfl
  · have htheme := h .theme
    have hkey : text? SettingKey.theme.name = some text := (congrArg text? hname).trans htext
    rw [hkey] at htheme
    have hchecked := checked_choice settings.theme
    rwa [show Choice.name settings.theme = text from htheme] at hchecked
  · rfl

theorem ofJson_texts_iff (hordered : record.Ordered)
    (hget : ∀ name, record.get? name = (text? name).map Json.text) :
    ofJson (.object record) = .ok settings ↔
      ∀ key : SettingKey, settings.text key = (text? key.name).getD key.absent := by
  constructor
  · intro h
    obtain ⟨row, hrow, h⟩ := bind_eq_ok.mp h
    rw [Layout.of_row_object hrow] at h
    exact (ofRow_texts_iff hget).mp h
  · intro h
    exact bind_eq_ok.mpr ⟨record, Layout.row_of_accepts (accepts_of_texts hordered hget h),
      (ofRow_texts_iff hget).mpr h⟩

end Settings

/-! ### The text that counts -/

namespace Preferences

open Json Workspace
open CommandLine (fresh)
open Store (NoneAgree Storable keyed agrees upsertRow plain_setting)

variable {name text value : String} {key other : SettingKey} {row : Record} {rows : List Record}
  {store : Store} {settings : Settings} {w w' : Workspace}

/-- The key and the value of a row in which both are texts. -/
def given (row : Record) : Option (String × String) :=
  match row.get? "key", row.get? "value" with
  | some (.text key), some (.text value) => some (key, value)
  | _, _ => none

/-- The text that a row gives for a name. -/
def text? (name : String) (row : Record) : Option String :=
  (given row).bind fun entry => if entry.1 = name then some entry.2 else none

/-- The text that counts for a name. -/
def lastText? (name : String) (rows : List Record) : Option String :=
  (rows.filterMap (text? name)).getLast?

theorem given_eq_some_iff : given row = some (name, text) ↔
    row.get? "key" = some (.text name) ∧ row.get? "value" = some (.text text) := by
  unfold given
  split
  · rename_i hkey hvalue
    simp [hkey, hvalue]
  · rename_i hnone
    exact iff_of_false nofun fun h => hnone name text h.1 h.2

theorem text?_eq_some_iff : text? name row = some text ↔
    row.get? "key" = some (.text name) ∧ row.get? "value" = some (.text text) := by
  rw [← given_eq_some_iff, text?, Option.bind_eq_some_iff]
  constructor
  · rintro ⟨⟨key, value⟩, hgiven, h⟩
    split_ifs at h with hkey
    cases h
    exact hkey ▸ hgiven
  · intro h
    exact ⟨(name, text), h, if_pos rfl⟩

/-- A row gives the same text after it was written. -/
theorem text?_reread (name : String) (row : Record) :
    text? name (rereadFields row) = text? name row := by
  refine Option.ext fun text => ?_
  simp only [text?_eq_some_iff, Record.get?_rereadFields, Option.map_eq_some_iff,
    reread_eq_text_iff, exists_eq_right]

theorem lastText?_reread (name : String) (rows : List Record) :
    lastText? name (rows.map rereadFields) = lastText? name rows := by
  have hsame : text? name ∘ rereadFields = text? name := funext (text?_reread name)
  rw [lastText?, List.filterMap_map, hsame, lastText?]

theorem lastText?_cons (name : String) (row : Record) (rows : List Record) :
    lastText? name (row :: rows) = (lastText? name rows).or (text? name row) := by
  unfold lastText?
  cases htext : text? name row with
  | none => rw [List.filterMap_cons_none htext, Option.or_none]
  | some text =>
    rw [List.filterMap_cons_some htext, List.getLast?_cons]
    cases (rows.filterMap (text? name)).getLast? <;> rfl

/-- The fields that the settings are read from have for each name the text that counts. -/
theorem get?_given (name : String) (rows : List Record) :
    (Record.ofFields ((rows.filterMap given).map fun entry => (entry.1, .text entry.2))).get? name =
      (lastText? name rows).map Json.text := by
  rw [Record.get?_ofFields]
  induction rows with
  | nil => rfl
  | cons row rest ih =>
    rw [lastText?_cons, text?]
    cases hgiven : given row with
    | none => rw [List.filterMap_cons_none hgiven, ih, Option.bind_none, Option.or_none]
    | some entry =>
      obtain ⟨key, value⟩ := entry
      rw [List.filterMap_cons_some hgiven, List.map_cons, Record.lastOf?_cons, ih, Option.bind_some]
      by_cases h : key = name
      · cases lastText? name rest <;> simp [h]
      · cases lastText? name rest <;> simp [h, Ne.symm h]

theorem entries_eq_ok_iff {found : List (String × String)} : entries store = .ok found ↔
    ∃ rows, store.tableRows .settings = .ok rows ∧ rows.filterMap given = found := by
  constructor
  · intro h
    obtain ⟨rows, hrows, hfound⟩ := bind_eq_ok.mp h
    cases hfound
    exact ⟨rows, Store.query_everything_iff.mp hrows, rfl⟩
  · rintro ⟨rows, hrows, rfl⟩
    exact bind_eq_ok.mpr ⟨rows, Store.query_everything_iff.mpr hrows, rfl⟩

/-- The settings are read where the rows are and each text that counts can be that of its setting. -/
theorem get_eq_ok_iff : get store = .ok settings ↔ ∃ rows, store.tableRows .settings = .ok rows ∧
    ∀ key : SettingKey, settings.text key = (lastText? key.name rows).getD key.absent := by
  have hread : ∀ rows, decodeRow .settings Settings.ofJson (.ofFields
      ((rows.filterMap given).map fun entry => (entry.1, .text entry.2))) = .ok settings ↔
      ∀ key : SettingKey, settings.text key = (lastText? key.name rows).getD key.absent :=
    fun rows => mapError_eq_ok.trans
      (Settings.ofJson_texts_iff (Record.ordered_ofFields _) fun name => get?_given name rows)
  constructor
  · intro h
    obtain ⟨found, hfound, h⟩ := bind_eq_ok.mp h
    obtain ⟨rows, hrows, rfl⟩ := entries_eq_ok_iff.mp hfound
    exact ⟨rows, hrows, (hread rows).mp h⟩
  · rintro ⟨rows, hrows, h⟩
    exact bind_eq_ok.mpr ⟨_, entries_eq_ok_iff.mpr ⟨rows, hrows, rfl⟩, (hread rows).mpr h⟩

/-! ### The row that is set -/

/-- Whether a row is one of a setting. -/
def IsOf (key : SettingKey) (row : Record) : Prop := row.get? "key" = some (.text key.name)

instance (key : SettingKey) (row : Record) : Decidable (IsOf key row) :=
  inferInstanceAs (Decidable (row.get? "key" = some (.text key.name)))

/-- The rows behind the first row of a setting. -/
def behind (key : SettingKey) (rows : List Record) : List Record :=
  (rows.dropWhile (¬ IsOf key ·)).tail

theorem name_injective : Function.Injective SettingKey.name := by
  intro a b h
  cases a <;> cases b <;> first | rfl | exact absurd h (by decide)

theorem hasKey_settingRow : Store.HasKey .settings (settingRow key value) := by
  simp [Store.HasKey, Table.naturalKey, settingRow, Record.has, Record.get?]

theorem agrees_settingRow :
    agrees (keyed .settings (settingRow key value)) row = true ↔ IsOf key row := by
  rw [Store.agrees_keyed_iff hasKey_settingRow]
  simp [Store.Agree, Table.naturalKey, settingRow, Record.get?, same_text_iff, IsOf]

theorem text?_settingRow : text? other.name (settingRow key value) =
    if other = key then some value else none := by
  refine Option.ext fun text => ?_
  rw [text?_eq_some_iff]
  simp [settingRow, Record.get?, name_injective.eq_iff, eq_comm]

theorem text?_of_ne (hother : other ≠ key) (hrow : IsOf key row) : text? other.name row = none := by
  refine Option.eq_none_iff_forall_ne_some.mpr fun text htext => hother ?_
  have hsame := (text?_eq_some_iff.mp htext).1.symm.trans hrow
  exact name_injective (Json.text.inj (Option.some.inj hsame))

/-- The rows after a setting was put among them. -/
def placed (key : SettingKey) (value : String) (rows : List Record) : List Record :=
  upsertRow (keyed .settings (settingRow key value)) (settingRow key value) rows

theorem placed_cons (key : SettingKey) (value : String) (row : Record) (rows : List Record) :
    placed key value (row :: rows) =
      if IsOf key row then settingRow key value :: rows else row :: placed key value rows := by
  rw [placed, upsertRow]
  simp only [agrees_settingRow, placed]

theorem behind_cons (key : SettingKey) (row : Record) (rows : List Record) :
    behind key (row :: rows) = if IsOf key row then rows else behind key rows := by
  unfold behind
  by_cases h : IsOf key row <;> simp [h]

/-- The text that is set counts unless one behind the row that it takes the place of does. -/
theorem lastText?_placed (key : SettingKey) (value : String) (rows : List Record) :
    lastText? key.name (placed key value rows) =
      some ((lastText? key.name (behind key rows)).getD value) := by
  induction rows with
  | nil => exact (lastText?_cons ..).trans (congrArg _ (text?_settingRow.trans (if_pos rfl)))
  | cons row rest ih =>
    rw [placed_cons, behind_cons]
    by_cases hrow : IsOf key row
    · rw [if_pos hrow, if_pos hrow, lastText?_cons, text?_settingRow, if_pos rfl]
      cases lastText? key.name rest <;> rfl
    · rw [if_neg hrow, if_neg hrow, lastText?_cons, ih, Option.some_or]

theorem lastText?_placed_ne (h : other ≠ key) (value : String) (rows : List Record) :
    lastText? other.name (placed key value rows) = lastText? other.name rows := by
  have hset : text? other.name (settingRow key value) = none := text?_settingRow.trans (if_neg h)
  induction rows with
  | nil => exact (lastText?_cons ..).trans (congrArg _ hset)
  | cons row rest ih =>
    rw [placed_cons]
    by_cases hrow : IsOf key row
    · rw [if_pos hrow, lastText?_cons, lastText?_cons, hset, text?_of_ne h hrow]
    · rw [if_neg hrow, lastText?_cons, lastText?_cons, ih]

/-- The statement by which a setting is set. -/
def setting (key : SettingKey) (value : String) : Statement :=
  .insertFields .settings [("key", .text key.name), ("value", .text value)] .replace

theorem effect_setting (key : SettingKey) (value : String) (rows : List Record) :
    (setting key value).effect rows = .ok (1, some (placed key value rows)) := by
  have hrow : Record.ofFields [("key", .text key.name), ("value", .text value)] =
      settingRow key value := Record.ofFields_of_ordered (plain_setting ..).ordered
  rw [setting, Store.effect_insertFields, if_neg (by decide), hrow,
    Store.keyOf_eq_keyed hasKey_settingRow]
  simp only [Store.upserted_eq, bind, Except.bind, reduceCtorEq, and_false, if_false]
  rfl

theorem set_eq (key : SettingKey) (value : String) (w : Workspace) :
    set key value w = match w.store.apply (setting key value) with
      | .ok (_, store) => .ok () { w with store }
      | .error e => .error e w := by
  change EStateM.bind (change (·.apply (setting key value))) _ w = _
  simp only [EStateM.bind, change]
  cases w.store.apply (setting key value) <;> rfl

/-- Where the settings are read and every write is taken each of them can be set. -/
theorem exists_set (hquota : w.store.quota = none) (hrows : w.store.tableRows .settings = .ok rows)
    (key : SettingKey) (value : String) : ∃ w', set key value w = .ok () w' := by
  have happly : w.store.apply (setting key value) = _ :=
    Store.apply_of_effect (show w.store.tableRows (setting key value).table = .ok rows from hrows)
      (effect_setting key value rows)
  rw [set_eq, happly]
  dsimp only
  rw [Store.setTableRows_healthy hquota]
  exact ⟨_, rfl⟩

/-- A setting that was set stands among the rows that were there. -/
theorem tableRows_set (h : set key value w = .ok () w') :
    ∃ rows, w.store.tableRows .settings = .ok rows ∧
      w'.store.tableRows .settings = .ok ((placed key value rows).map rereadFields) := by
  rw [set_eq] at h
  split at h
  · rename_i count store' happly
    cases h
    obtain ⟨rows, written, hrows, heffect, hset⟩ := Store.apply_cases happly
    have hplaced := (effect_setting key value rows).symm.trans heffect
    cases hplaced
    have hstorable : ∀ row ∈ placed key value rows, Storable row :=
      Store.storable_upsertRow hrows (plain_setting key.name value).storable
    refine ⟨rows, hrows, mapError_eq_ok.mpr ?_⟩
    exact (Store.rows_setRows_self (mapError_eq_ok.mp hset)).trans
      (Store.rowsOfText_storable _ hstorable)
  · cases h

/-- The settings are read from the rows among which one was put where its text, or the one that counts
in its place, can be that of the setting, and the others as before. -/
theorem get_placed_iff
    (h : store.tableRows .settings = .ok ((placed key value rows).map rereadFields)) :
    get store = .ok settings ↔
      settings.text key = (lastText? key.name (behind key rows)).getD value ∧
        ∀ other ≠ key, settings.text other = (lastText? other.name rows).getD other.absent := by
  rw [get_eq_ok_iff, h]
  simp only [Except.ok.injEq, exists_eq_left', lastText?_reread]
  constructor
  · intro hall
    refine ⟨by rw [hall key, lastText?_placed, Option.getD_some], fun other hother => ?_⟩
    rw [hall other, lastText?_placed_ne hother]
  · rintro ⟨hself, hothers⟩ other
    by_cases hother : other = key
    · rw [hother, hself, lastText?_placed, Option.getD_some]
    · rw [hothers other hother, lastText?_placed_ne hother]

/-- Where each setting has one row there is none behind it that gives a text. -/
theorem lastText?_behind (h : NoneAgree .settings rows) :
    lastText? key.name (behind key rows) = none := by
  induction rows with
  | nil => rfl
  | cons row rest ih =>
    obtain ⟨hfirst, hrest⟩ := List.pairwise_cons.mp h
    rw [behind_cons]
    by_cases hrow : IsOf key row
    · rw [if_pos hrow, lastText?, List.getLast?_eq_none_iff, List.filterMap_eq_nil_iff]
      refine fun other hother => Option.eq_none_iff_forall_ne_some.mpr fun text htext => ?_
      refine hfirst other hother fun column hcolumn => ?_
      obtain rfl := List.mem_singleton.mp hcolumn
      exact ⟨_, hrow, _, (text?_eq_some_iff.mp htext).1, same_text_iff.mpr rfl⟩
    · rw [if_neg hrow, ih hrest]

/-- A setting is set among rows. Afterwards the settings are read where the others can be, and its text
can. It is the one that was set where no row behind the one that this was put in the place of gives
another, so wherever no two rows are of one setting. The others are what they were. -/
structure ReadsAfter (key : SettingKey) (value : String) (rows : List Record)
    (w w' : Workspace) : Prop where
  read : w.store.tableRows .settings = .ok rows
  get_iff : ∀ settings, get w'.store = .ok settings ↔
    settings.text key = (lastText? key.name (behind key rows)).getD value ∧
      ∀ other ≠ key, settings.text other = (lastText? other.name rows).getD other.absent
  own_iff : ∀ settings, get w'.store = .ok settings →
    (settings.text key = value ↔ ∀ text ∈ lastText? key.name (behind key rows), text = value)
  own : NoneAgree .settings rows →
    ∀ settings, get w'.store = .ok settings → settings.text key = value
  others : ∀ before settings, get w.store = .ok before → get w'.store = .ok settings →
    ∀ other ≠ key, settings.text other = before.text other

/-- The settings are read after one of them was set. -/
theorem get_after_set (h : set key value w = .ok () w') : ∃ rows, ReadsAfter key value rows w w' := by
  obtain ⟨rows, hrows, hplaced⟩ := tableRows_set h
  have hget : ∀ settings, get w'.store = .ok settings ↔ _ := fun _ => get_placed_iff hplaced
  refine ⟨rows, hrows, hget, fun settings hafter => ?_, fun hnone settings hafter => ?_,
    fun before settings hbefore hafter => ?_⟩
  · rw [((hget settings).mp hafter).1]
    cases lastText? key.name (behind key rows) <;> simp
  · rw [((hget settings).mp hafter).1, lastText?_behind hnone, Option.getD_none]
  · obtain ⟨read, hread, hall⟩ := get_eq_ok_iff.mp hbefore
    cases hrows.symm.trans hread
    intro other hother
    rw [((hget settings).mp hafter).2 other hother, hall other]

theorem get_after_set_dark : ∃ w', set .theme "dark" (fresh ⟨0⟩) = .ok () w' ∧
    get w'.store = .ok ⟨.dark, "blue"⟩ := by
  have hrows : (fresh ⟨0⟩).store.tableRows .settings = .ok (settingRows "light" "blue") :=
    settings_fresh ▸ (Store.holdsPlain_fresh ⟨0⟩).holds.tableRows .settings
  obtain ⟨w', hset⟩ := exists_set rfl hrows .theme "dark"
  obtain ⟨rows, hreads⟩ := get_after_set hset
  cases hrows.symm.trans hreads.read
  refine ⟨w', hset, (hreads.get_iff _).mpr ⟨by decide, fun other hother => ?_⟩⟩
  cases other with
  | theme => exact absurd rfl hother
  | colorScheme => decide

/-- A statement that puts a second row of the theme behind the others. -/
def secondTheme : String := "INSERT INTO settings (key, value) VALUES ('theme', 'dark')"

/-- The theme that is set takes the place of the first row, and the second one is reported. -/
theorem not_reported_second : ∃ store w' settings,
    (fresh ⟨0⟩).store.execute secondTheme [] = .ok (1, store) ∧
    set .theme "light" { fresh ⟨0⟩ with store } = .ok () w' ∧
    get w'.store = .ok settings ∧ settings.text .theme ≠ "light" := by
  obtain ⟨⟨count, store⟩, hexecute, hreport⟩ : ∃ result,
      (fresh ⟨0⟩).store.execute secondTheme [] = .ok result ∧ (decide (result.1 = 1) &&
        match set .theme "light" { fresh ⟨0⟩ with store := result.2 } with
        | .ok () w' => (get w'.store).toOption.any fun settings => settings.text .theme ≠ "light"
        | .error _ _ => false) = true := exists_of_any (by decide +kernel)
  obtain ⟨hcount, hreport⟩ := Bool.and_eq_true_iff.mp hreport
  cases of_decide_eq_true hcount
  split at hreport
  · rename_i w' hset
    obtain ⟨settings, hget, hne⟩ := exists_of_any hreport
    exact ⟨store, w', settings, hexecute, hset, hget, of_decide_eq_true hne⟩
  · cases hreport

end Preferences
end Planner

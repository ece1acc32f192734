import Planner.Proofs.Json.Items
import Planner.Proofs.Json.Reread

/-!
The compact and the indented text of a value as one printer with different spaces, and the value
that the reader makes of either.
-/
namespace Planner.Json

open Numeral (Ends)

/-- The space in front of an item on each level, and behind a colon. -/
structure Spacing where
  line : Nat → List Char
  colon : List Char
  line_blank : ∀ level, Blank (line level)
  colon_blank : Blank colon

namespace Spacing

def compact : Spacing := ⟨fun _ => [], [], by simp [Blank], by simp [Blank]⟩

def pretty : Spacing where
  line := newLine
  colon := [' ']
  line_blank level c hc := by
    rcases List.mem_cons.mp hc with rfl | hc
    · rfl
    · rw [List.eq_of_mem_replicate hc]
      rfl
  colon_blank c hc := by
    rw [List.mem_singleton.mp hc]
    rfl

end Spacing

variable {sp : Spacing} {rest : List Char}

mutual

/-- The text of a value with the given spaces. -/
def spaced (sp : Spacing) (level : Nat) : Json → List Char
  | .null => nullText
  | .bool b => boolText b
  | .number n => n.toText
  | .text s => quote s
  | .list items =>
    '[' :: listed ']' (sp.line (level + 1)) (sp.line level) (spacedItems sp (level + 1) items)
  | .object fields =>
    '{' :: listed '}' (sp.line (level + 1)) (sp.line level) (spacedFields sp (level + 1) fields)

def spacedItems (sp : Spacing) (level : Nat) : List Json → List (List Char)
  | [] => []
  | item :: rest => spaced sp level item :: spacedItems sp level rest

def spacedFields (sp : Spacing) (level : Nat) : Record → List (List Char)
  | [] => []
  | (key, value) :: rest =>
    (quote key ++ ':' :: sp.colon ++ spaced sp level value) :: spacedFields sp level rest

end

/-- What is written behind the key of a field. -/
def fieldBody (sp : Spacing) (level : Nat) (field : String × Json) : List Char :=
  ':' :: sp.colon ++ spaced sp level field.2

theorem spacedItems_eq_map (level : Nat) (items : List Json) :
    spacedItems sp level items = items.map (spaced sp level) := by
  induction items with
  | nil => rfl
  | cons item rest ih => simp [spacedItems, ih]

theorem spacedFields_eq_map (level : Nat) (fields : Record) :
    spacedFields sp level fields = fields.map (fieldText Prod.fst (fieldBody sp level)) := by
  induction fields with
  | nil => rfl
  | cons field rest ih => simp [spacedFields, ih, fieldText, fieldBody]

theorem renderItems_eq (items : List Json) :
    renderItems items = (items.map render).flatMap (fun text => ',' :: [] ++ text) := by
  induction items with
  | nil => rfl
  | cons item rest ih => simp [renderItems, ih]

theorem renderFields_eq (fields : Record) :
    renderFields fields = (fields.map (fieldText Prod.fst fun field => ':' :: field.2.render)).flatMap
      (fun text => ',' :: [] ++ text) := by
  induction fields with
  | nil => rfl
  | cons field rest ih => simp [renderFields, ih, fieldText]

theorem renderPrettyItems_eq (level : Nat) (items : List Json) :
    renderPrettyItems level items =
      (items.map (renderPretty level)).flatMap (fun text => ',' :: newLine level ++ text) := by
  induction items with
  | nil => rfl
  | cons item rest ih => simp [renderPrettyItems, ih]

theorem renderPrettyFields_eq (level : Nat) (fields : Record) :
    renderPrettyFields level fields =
      (fields.map (fieldText Prod.fst fun field => ':' :: ' ' :: field.2.renderPretty level)).flatMap
        (fun text => ',' :: newLine level ++ text) := by
  induction fields with
  | nil => rfl
  | cons field rest ih => simp [renderPrettyFields, ih, fieldText]

theorem render_eq_spaced (value : Json) : ∀ level, value.render = spaced .compact level value := by
  induction value using induct with
  | null | bool | number | text => exact fun _ => rfl
  | list items ih =>
    intro level
    have hmap : spacedItems .compact (level + 1) items = items.map render := by
      rw [spacedItems_eq_map]
      exact List.map_congr_left fun item hi => (ih item hi _).symm
    rw [spaced, hmap]
    cases items with
    | nil => rfl
    | cons item rest => simp [render, listed, renderItems_eq, Spacing.compact]
  | object fields ih =>
    intro level
    have hmap : spacedFields .compact (level + 1) fields =
        fields.map (fieldText Prod.fst fun field => ':' :: field.2.render) := by
      rw [spacedFields_eq_map]
      exact List.map_congr_left fun field hf => by
        simp [fieldText, fieldBody, ih field hf (level + 1), Spacing.compact]
    rw [spaced, hmap]
    cases fields with
    | nil => rfl
    | cons field rest => simp [render, listed, renderFields_eq, fieldText, Spacing.compact]

theorem renderPretty_eq_spaced (value : Json) :
    ∀ level, value.renderPretty level = spaced .pretty level value := by
  induction value using induct with
  | null | bool | number | text => exact fun _ => rfl
  | list items ih =>
    intro level
    have hmap : spacedItems .pretty (level + 1) items = items.map (renderPretty (level + 1)) := by
      rw [spacedItems_eq_map]
      exact List.map_congr_left fun item hi => (ih item hi _).symm
    rw [spaced, hmap]
    cases items with
    | nil => rfl
    | cons item rest => simp [renderPretty, listed, renderPrettyItems_eq, Spacing.pretty]
  | object fields ih =>
    intro level
    have hmap : spacedFields .pretty (level + 1) fields =
        fields.map (fieldText Prod.fst fun field => ':' :: ' ' :: field.2.renderPretty (level + 1)) := by
      rw [spacedFields_eq_map]
      exact List.map_congr_left fun field hf => by
        simp [fieldText, fieldBody, ih field hf (level + 1), Spacing.pretty]
    rw [spaced, hmap]
    cases fields with
    | nil => rfl
    | cons field rest => simp [renderPretty, listed, renderPrettyFields_eq, fieldText, Spacing.pretty]

end Planner.Json

import Planner.Entity.Choice

/-! The settings of the planner. -/
namespace Planner

open Json (Fault)

inductive SettingKey
  | theme
  | colorScheme
deriving DecidableEq

namespace SettingKey

def name : SettingKey → String
  | .theme => "theme"
  | .colorScheme => "colorScheme"

/-- The second key may also be spelled with a dash or an underscore. -/
def ofText? (text : String) : Option SettingKey :=
  if text = "theme" then some .theme
  else if text = "colorScheme" ∨ text = "color-scheme" ∨ text = "color_scheme" then
    some .colorScheme
  else none

/-- What is said of a text that names no setting. -/
def refusal (text : String) : String := s!"unknown setting '{text}'"

end SettingKey

structure Settings where
  theme : Theme
  colorScheme : String
deriving DecidableEq

namespace Settings

def layout : Layout := ⟨"Settings", [
  .optional "theme" (Choice.read (α := Theme)),
  .optional "colorScheme" Json.asText]⟩

def ofRow (row : Record) : Except Fault Settings := do
  return {
    theme := ← row.optional "theme" .light Choice.read
    colorScheme := ← row.optional "colorScheme" "blue" Json.asText }

def ofJson (value : Json) : Except Fault Settings := do ofRow (← layout.row value)

def toJson (s : Settings) : Json := .object <| Record.ofFields [
  ("theme", .text (Choice.name s.theme)),
  ("colorScheme", .text s.colorScheme)]

end Settings
end Planner

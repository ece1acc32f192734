import Planner.Entity.Layout
import Planner.Json.Reader.Value

/-! Lists of texts that are kept in one column, as the text of a JSON list. -/
namespace Planner.TextList

def column (texts : List String) : Json := .text (Json.ofTexts texts).toText

def ofColumn (text : String) : Except Json.Fault (List String) := Json.readTexts text

end Planner.TextList

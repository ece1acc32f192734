import Planner.Text.Ranges

/-! White space: the characters that separate words and that trimming removes. -/
namespace Planner.Text

/-- Where the white-space characters begin and end. -/
def blankBounds : List Nat := [
  9, 14, 32, 33, 133, 134, 160, 161, 5760, 5761, 8192, 8203, 8232, 8234, 8239, 8240, 8287, 8288,
  12288, 12289]

def isBlank (c : Char) : Bool := inRanges blankBounds c.toNat

/-- The text without white space at its start. -/
def trimStart (s : List Char) : List Char := s.dropWhile isBlank

/-- The text without white space at either end. -/
def trim (s : List Char) : List Char := (trimStart (trimStart s).reverse).reverse

end Planner.Text

import Planner.Date.Text

/-! Moments, counted in milliseconds from the start of 1970, and their text. -/
namespace Planner

structure Instant where
  milliseconds : Int
deriving DecidableEq

namespace Instant

def dayLength : Int := 86400000

/-- The number of the first day of 1970. -/
def firstDay : Int := 719528

/-- The day of a moment. -/
def date (t : Instant) : Date :=
  (Date.ofNumber? (firstDay + t.milliseconds / dayLength)).getD Date.first

def toText (t : Instant) : String :=
  let rest := (t.milliseconds % dayLength).toNat
  String.ofList <|
    t.date.toChars ++ 'T' :: Date.padded 2 (rest / 3600000)
      ++ ':' :: Date.padded 2 (rest / 60000 % 60)
      ++ ':' :: Date.padded 2 (rest / 1000 % 60)
      ++ '.' :: Date.padded 3 (rest % 1000) ++ ['Z']

end Instant
end Planner

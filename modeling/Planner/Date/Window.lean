import Planner.Date.Text

/-! The windows of days that tasks are listed by. -/
namespace Planner

/-- The day itself, its week from Sunday to Saturday, or its month. -/
inductive Window
  | today
  | week
  | month
deriving DecidableEq

namespace Window

def ofName? (name : String) : Option Window :=
  if name = "today" then some .today
  else if name = "week" then some .week
  else if name = "month" then some .month
  else none

/-- The first and the last day of the window around a day, if the calendar reaches so far; past
the end of a month it has to have a day, too. -/
def days? (window : Window) (today : Date) : Option (Date × Date) :=
  match window with
  | .today => some (today, today)
  | .week => do
    let start ← today.addDays? (-today.daysFromSunday)
    return (start, ← start.addDays? 6)
  | .month => do
    let start ← today.addDays? (1 - (today.day : Int))
    return (start, ← (← start.nextMonth?).addDays? (-1))

/-- The last moment of a day, which no date and no time on that day comes after. -/
def endOfDay (d : Date) : String := d.toText ++ "T23:59:59.999Z"

/-- The texts between which the due dates in the window lie. -/
def bounds? (window : Window) (today : Date) : Option (String × String) := do
  let (first, last) ← window.days? today
  return (first.toText, endOfDay last)

end Window
end Planner

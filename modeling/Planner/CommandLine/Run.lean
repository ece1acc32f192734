import Planner.CommandLine.Command
import Planner.Files
import Planner.Habits
import Planner.Notes
import Planner.Preferences
import Planner.Routines
import Planner.Tasks
import Planner.Transfer

/-! What each command does and prints. -/
namespace Planner.CommandLine

inductive CommandError
  | database (cause : DatabaseError)
  | transfer (cause : TransferError)
  | file (cause : FileError)
  | badDate (text : String) (cause : Date.TextError)
  | unknownWindow (text : String)
  | noTask (id : String)
  | noHabit (id : String)
  | loneBound
  | noDays
  | badParameters (fault : Json.Fault)

def CommandError.message : CommandError → String
  | .database cause => s!"Database error: {cause.message}"
  | .transfer cause => s!"Transfer error: {cause.message}"
  | .file cause => s!"I/O error: {cause.message}"
  | .badDate text cause =>
    s!"Failed to parse date: Invalid date format '{text}': {cause.message}"
  | .unknownWindow text =>
    s!"Invalid argument: unknown due window '{text}' (expected today, week or month)"
  | .noTask id => s!"Invalid argument: no task with ID {id}"
  | .noHabit id => s!"Invalid argument: no habit with ID {id}"
  | .loneBound => "Invalid argument: --from and --to must be given together"
  | .noDays => "Invalid argument: --days needs at least one weekday"
  | .badParameters fault =>
    s!"Invalid argument: --params must be a JSON array: {fault.message}"

/-- Where commands run: a workspace, the files around it, and what was printed. -/
structure Terminal where
  workspace : Workspace
  files : Files
  printed : String
  /-- The folder of notes that are not given one. -/
  noteFolder : String

abbrev Work (α : Type) := EStateM CommandError Terminal α

def print (line : String) : Work Unit := fun t =>
  .ok () { t with printed := t.printed ++ line ++ "\n" }

variable {ε α : Type}

/-- Work on the workspace alone. -/
def onWorkspace (wrap : ε → CommandError) (action : Action ε α) : Work α := fun t =>
  match action t.workspace with
  | .ok a workspace => .ok a { t with workspace }
  | .error e workspace => .error (wrap e) { t with workspace }

def inDatabase (action : Action DatabaseError α) : Work α := onWorkspace .database action

/-- Looks something up in the store. -/
def look (read : Store → Except DatabaseError α) : Work α := inDatabase (Workspace.view read)

def readFile (path : String) : Work String := fun t =>
  match t.files.read path with
  | .ok text => .ok text t
  | .error e => .error (.file e) t

def writeFile (path text : String) : Work Unit := fun t =>
  match t.files.write path text with
  | .ok files => .ok () { t with files }
  | .error e => .error (.file e) t

def checkDate (text : String) : Work Unit :=
  match Date.ofText text with
  | .ok _ => return ()
  | .error e => throw (.badDate text e)

/-- The items between commas, trimmed, without the empty ones. -/
def splitList (text : String) : List String :=
  ((text.splitOn ",").map fun item => String.ofList (Text.trim item.toList)).filter (· ≠ "")

def today : Work Date := fun t => .ok t.workspace.now.date t

def mark (done : Bool) : String := if done then "x" else " "

def printTask (task : Task) : Work Unit := do
  let due := task.dueDate.getD "-"
  print <| "[" ++ mark (task.status = .complete) ++ "] " ++ task.id ++ "  " ++ task.title
    ++ " (" ++ Choice.name task.priority ++ ", due " ++ due ++ ")"
  for subtask in task.subtasks do
    print ("      [" ++ mark subtask.completed ++ "] " ++ subtask.title)

def addTask (title : String) (description : Option String) (priority : Option Priority)
    (due : Option String) : Work Unit := do
  if let some due := due then checkDate due
  let task ← inDatabase <| Tasks.create
    { title, description, priority := priority.getD .medium, dueDate := due }
  print s!"Task created successfully (ID: {task.id})"

/-- Only the first filter that is given counts. -/
def findTasks (due : Option String) (priority : Option Priority) (status : Option TaskStatus)
    (search : Option String) : Work (List Task) :=
  match due, priority, status, search with
  | some due, _, _, _ => match Window.ofName? due with
    | some window => do look (Tasks.dueIn window (← today))
    | none => throw (.unknownWindow due)
  | none, some priority, _, _ => look (Tasks.ofPriority priority)
  | none, none, some status, _ => look (Tasks.ofStatus status)
  | none, none, none, some text => look (Tasks.search text)
  | none, none, none, none => look Tasks.all

def listTasks (due : Option String) (priority : Option Priority) (status : Option TaskStatus)
    (search : Option String) : Work Unit := do
  let found ← findTasks due priority status search
  if found.isEmpty then print "No tasks"
  found.forM printTask

def completeTask (id : String) : Work Unit := do
  match ← inDatabase (Tasks.update id { status := some .complete }) with
  | some task => print s!"Completed: {task.title}"
  | none => print s!"No task with ID {id}"

def deleteTask (id : String) : Work Unit := do
  if ← inDatabase (Tasks.delete id) then print "Task deleted"
  else print s!"No task with ID {id}"

def addSubtask (taskId title : String) : Work Unit := do
  if (← look (Tasks.get? taskId)).isNone then throw (.noTask taskId)
  let subtask ← inDatabase (Tasks.addSubtask taskId title)
  print s!"Subtask created successfully (ID: {subtask.id})"

def addNote (title : String) (content folder tags : Option String) : Work Unit := do
  let folder := folder.getD (← get).noteFolder
  let note ← inDatabase <| Notes.create
    { title, content := content.getD "", folder, tags := (tags.map splitList).getD [] }
  print s!"Note created successfully (ID: {note.id})"

def printNote (note : Note) : Work Unit :=
  let tags := if note.tags.isEmpty then "" else "  #" ++ " #".intercalate note.tags
  print (note.id ++ "  [" ++ note.folder ++ "] " ++ note.title ++ tags)

def listNotes (folder search : Option String) : Work Unit := do
  let found ← match folder, search with
    | _, some text => look (Notes.search text)
    | some folder, none => look (Notes.inFolder folder)
    | none, none => look Notes.all
  if found.isEmpty then print "No notes"
  found.forM printNote

def addEvent (title start : String) (stop location : Option String) (type : Option EventType) :
    Work Unit := do
  let event ← inDatabase <| Events.create
    { title, startTime := start, endTime := stop, location, type := type.getD .personal }
  print s!"Event created successfully (ID: {event.id})"

def printEvent (event : Event) : Work Unit :=
  print <| event.id ++ "  " ++ event.startTime ++ " - " ++ event.endTime.getD "" ++ "  "
    ++ event.title ++ " (" ++ Choice.name event.type ++ ")"

def listEvents (start stop : Option String) : Work Unit := do
  let found ← match start, stop with
    | some start, some stop => look (Events.startingIn start stop)
    | none, none => look Events.all
    | _, _ => throw .loneBound
  if found.isEmpty then print "No events"
  found.forM printEvent

def addHabit (name : String) (frequency : Option Frequency) : Work Unit := do
  let habit ← inDatabase (Habits.create { name, frequency := frequency.getD .daily })
  print s!"Habit created successfully (ID: {habit.id})"

def logHabit (habitId : String) (date : Option String) (missed : Bool) : Work Unit := do
  let day ← today
  let date := date.getD day.toText
  checkDate date
  if (← look (Habits.get? habitId)).isNone then throw (.noHabit habitId)
  let entry ← inDatabase (Habits.log habitId date !missed)
  let streak ← look (Habits.streak habitId day)
  let outcome := if entry.completed then "done" else "missed"
  print s!"Logged {entry.date} as {outcome} (streak: {streak})"

/-- How many days the rate in the list of habits looks back. -/
def rateDays : Nat := 30

def printHabit (habit : Habit) : Work Unit := do
  let day ← today
  let streak ← look (Habits.streak habit.id day)
  let rate ← look (Habits.successRate habit.id rateDays day)
  print <| habit.id ++ "  " ++ habit.name ++ " (" ++ Choice.name habit.frequency ++ ")  streak "
    ++ toString streak ++ "  30d " ++ toString rate ++ "%"

def listHabits : Work Unit := do
  let found ← look Habits.all
  if found.isEmpty then print "No habits"
  found.forM printHabit

def addRoutine (title start stop days : String) : Work Unit := do
  let days := splitList days
  if days.isEmpty then throw .noDays
  let routine ← inDatabase (Routines.create { title, startTime := start, endTime := stop, days })
  print s!"Routine created successfully (ID: {routine.id})"

def printRoutine (routine : Routine) : Work Unit :=
  print <| routine.id ++ "  " ++ routine.startTime ++ "-" ++ routine.endTime ++ "  "
    ++ routine.title ++ " [" ++ ", ".intercalate routine.days ++ "]"

def listRoutines (day : Option String) : Work Unit := do
  let found ← match day with
    | some day => look (Routines.onDay day)
    | none => look Routines.all
  if found.isEmpty then print "No routines"
  found.forM printRoutine

def showSettings : Work Unit := do
  for (key, value) in ← look Preferences.entries do print s!"{key} = {value}"

def setSetting (key : SettingKey) (value : String) : Work Unit := do
  inDatabase (Preferences.set key value)
  print s!"{key.name} = {value}"

/-- The document that a snapshot writes. -/
def snapshotText : Work String := do
  let now := (← get).workspace.now
  onWorkspace .transfer (Workspace.view (Transfer.snapshotText now))

def snapshot (path : String) : Work Unit := do
  writeFile path (← snapshotText)
  print s!"Exported to {path}"

/-- Restores the document that was found at a path. -/
def restoreText (path text : String) : Work Unit := do
  let restored ← onWorkspace .transfer (Transfer.restoreText text)
  print s!"Imported {restored} rows from {path}"

def restore (path : String) : Work Unit := do restoreText path (← readFile path)

def readParameters : Option String → Work (List Json)
  | none => return []
  | some text => match Json.readList text with
    | .ok parameters => return parameters
    | .error fault => throw (.badParameters fault)

/-- Prints the rows that a selection finds, or how many rows any other statement touched. -/
def query (sql : String) (parameters : Option String) : Work Unit := do
  let parameters ← readParameters parameters
  match Sql.parse sql parameters with
  | .error e => throw (.database (.parse e))
  | .ok (.select s) =>
    let rows ← look (Store.query s)
    print (Json.list (rows.map .object)).toPrettyText
  | .ok statement =>
    let touched ← inDatabase (Workspace.run statement)
    let count := match Integer.ofInt? touched with
      | some n => Json.number (.integer n)
      | none => .null
    print (Json.object [("affected", count)]).toPrettyText

def run : Command → Work Unit
  | .addTask title description priority due => addTask title description priority due
  | .tasks due priority status search => listTasks due priority status search
  | .completeTask id => completeTask id
  | .deleteTask id => deleteTask id
  | .addSubtask taskId title => addSubtask taskId title
  | .addNote title content folder tags => addNote title content folder tags
  | .notes folder search => listNotes folder search
  | .addEvent title start stop location type => addEvent title start stop location type
  | .events start stop => listEvents start stop
  | .addHabit name frequency => addHabit name frequency
  | .logHabit habitId date missed => logHabit habitId date missed
  | .habits => listHabits
  | .addRoutine title start stop days => addRoutine title start stop days
  | .routines day => listRoutines day
  | .settings => showSettings
  | .setSetting key value => setSetting key value
  | .snapshot path => snapshot path
  | .restore path => restore path
  | .query sql parameters => query sql parameters

end Planner.CommandLine

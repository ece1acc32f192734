import Planner.CommandLine.Usage
import Planner.Entity.Choice
import Planner.Entity.Settings

/-! The commands and the words they are given with. -/
namespace Planner.CommandLine

inductive Command
  | addTask (title : String) (description : Option String) (priority : Option Priority)
    (due : Option String)
  | tasks (due : Option String) (priority : Option Priority) (status : Option TaskStatus)
    (search : Option String)
  | completeTask (id : String)
  | deleteTask (id : String)
  | addSubtask (taskId title : String)
  | addNote (title : String) (content folder tags : Option String)
  | notes (folder search : Option String)
  | addEvent (title start : String) (stop location : Option String) (type : Option EventType)
  | events (start stop : Option String)
  | addHabit (name : String) (frequency : Option Frequency)
  | logHabit (habitId : String) (date : Option String) (missed : Bool)
  | habits
  | addRoutine (title start stop days : String)
  | routines (day : Option String)
  | settings
  | setSetting (key : SettingKey) (value : String)
  | snapshot (path : String)
  | restore (path : String)
  | query (sql : String) (parameters : Option String)

/-- A command's name, its arguments, and what they make of it once they are all there. -/
structure Form where
  name : String
  arguments : List Argument
  build : Matches → Option Command

namespace Argument

/-- A word that has to be there, taken by its place. -/
def place (name : String) : Argument := { name, kind := .positional, required := true }

def option (name : String) : Argument := { name, kind := .option }

def flag (name : String) : Argument := { name, kind := .flag }

/-- An option whose value names one of a few choices. -/
def choice (name : String) (α : Type) [Choice α] : Argument :=
  { name, kind := .option, accepts := fun s => (Choice.ofText? (α := α) s).isSome }

/-- The flag that every command has. -/
def help : Argument := { name := "help", kind := .asking .help, short := some 'h' }

end Argument

namespace Matches

def text? (name : String) (given : Matches) : Option String := given.lookup name

def choice? {α : Type} [Choice α] (name : String) (given : Matches) : Option α :=
  (given.lookup name).bind Choice.ofText?

end Matches

/-- Every command, under the name that calls it. -/
def forms : List Form := [
  ⟨"add-task",
    [.place "title", .option "description", .choice "priority" Priority, .option "due"],
    fun given => do
      return .addTask (← given.text? "title") (given.text? "description")
        (given.choice? "priority") (given.text? "due")⟩,
  ⟨"tasks",
    [.option "due", .choice "priority" Priority, .choice "status" TaskStatus, .option "search"],
    fun given => some <| .tasks (given.text? "due") (given.choice? "priority")
      (given.choice? "status") (given.text? "search")⟩,
  ⟨"complete-task", [.place "id"], fun given => do return .completeTask (← given.text? "id")⟩,
  ⟨"delete-task", [.place "id"], fun given => do return .deleteTask (← given.text? "id")⟩,
  ⟨"add-subtask", [.place "task_id", .place "title"],
    fun given => do return .addSubtask (← given.text? "task_id") (← given.text? "title")⟩,
  ⟨"add-note", [.place "title", .option "content", .option "folder", .option "tags"],
    fun given => do
      return .addNote (← given.text? "title") (given.text? "content") (given.text? "folder")
        (given.text? "tags")⟩,
  ⟨"notes", [.option "folder", .option "search"],
    fun given => some <| .notes (given.text? "folder") (given.text? "search")⟩,
  ⟨"add-event",
    [.place "title", .place "start", .option "end", .option "location",
      .choice "type" EventType],
    fun given => do
      return .addEvent (← given.text? "title") (← given.text? "start") (given.text? "end")
        (given.text? "location") (given.choice? "type")⟩,
  ⟨"events", [.option "from", .option "to"],
    fun given => some <| .events (given.text? "from") (given.text? "to")⟩,
  ⟨"add-habit", [.place "name", .choice "frequency" Frequency],
    fun given => do return .addHabit (← given.text? "name") (given.choice? "frequency")⟩,
  ⟨"log-habit", [.place "habit_id", .option "date", .flag "missed"],
    fun given => do
      return .logHabit (← given.text? "habit_id") (given.text? "date") (given.has "missed")⟩,
  ⟨"habits", [], fun _ => some .habits⟩,
  ⟨"add-routine",
    [.place "title", .place "start", .place "end",
      { Argument.option "days" with required := true }],
    fun given => do
      return .addRoutine (← given.text? "title") (← given.text? "start") (← given.text? "end")
        (← given.text? "days")⟩,
  ⟨"routines", [.option "day"], fun given => some <| .routines (given.text? "day")⟩,
  ⟨"settings", [], fun _ => some .settings⟩,
  ⟨"set-setting",
    [{ Argument.place "key" with accepts := fun s => (SettingKey.ofText? s).isSome },
      .place "value"],
    fun given => do
      return .setSetting (← SettingKey.ofText? (← given.text? "key")) (← given.text? "value")⟩,
  ⟨"export", [.place "path"], fun given => do return .snapshot (← given.text? "path")⟩,
  ⟨"import", [.place "path"], fun given => do return .restore (← given.text? "path")⟩,
  ⟨"query", [.place "sql", .option "params"],
    fun given => do return .query (← given.text? "sql") (given.text? "params")⟩]

/-- What may stand in front of the command. -/
def globalArguments : List Argument := [
  { name := "config", kind := .option, short := some 'c' },
  { name := "dev", kind := .flag },
  .help,
  { name := "version", kind := .asking .version, short := some 'V' }]

/-- A whole command line. -/
structure Invocation where
  config : Option String
  dev : Bool
  command : Command

def form? (name : String) : Option Form := forms.find? (·.name = name)

def isCommandName (name : String) : Bool := name = "help" || (form? name).isSome

def Form.command (form : Form) (words : List String) : Except UsageError Command := do
  match form.build (← takeAll (form.arguments ++ [.help]) words) with
  | some command => return command
  | none => .error .missingArgument

/-- The answer to `help` and the words behind it. -/
def helpOn : List String → UsageError
  | [] => .help
  | [name] => if isCommandName name then .help else .unknownCommand
  | _ => .unknownCommand

/-- What is left of the command line when there is no command in it. -/
def withoutCommand (p : Progress) : UsageError :=
  match p.settle with
  | .error e => e
  | .ok p => if p.given.isEmpty then .helpForMissing else .missingCommand

/-- Reads a command line up to the name of a command, and then that command's words. -/
def parseFrom (p : Progress) : List String → Except UsageError Invocation
  | [] => .error (withoutCommand p)
  | word :: rest =>
    if !p.dashed && !p.awaitsValue && isCommandName word then
      match form? word with
      | none => .error (helpOn rest)
      | some form => do
        let command ← form.command rest
        let given := (← p.settle).given
        return ⟨given.text? "config", given.has "dev", command⟩
    else do
      let stray : UsageError :=
        if p.dashed && isCommandName word then .unknownArgument else .unknownCommand
      parseFrom (← take globalArguments stray word p) rest

def parse (words : List String) : Except UsageError Invocation := parseFrom {} words

end Planner.CommandLine

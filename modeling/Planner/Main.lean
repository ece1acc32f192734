import Planner.CommandLine.Run
import Planner.Config
import Planner.Workspace.Saved
import Std.Time.DateTime.Timestamp

/-! The program: one command on the store that the configuration names. -/
namespace Planner

open CommandLine

/-- The text of a file, if there is one. -/
def readExisting (path : String) : IO (Option String) := do
  try
    return some (← IO.FS.readFile path)
  catch
    | .noFileOrDirectory .. => return none
    | e => throw e

/-- Writes a file, and the directory around it if it is missing. -/
def writeInDirectory (path text : String) : IO Unit := do
  let steps := path.splitOn "/"
  if 1 < steps.length then IO.FS.createDirAll ("/".intercalate steps.dropLast)
  IO.FS.writeFile path text

def wanted {α : Type} (result : Except Toml.Fault α) : IO α :=
  match result with
  | .ok a => return a
  | .error fault => throw (.userError s!"Failed to parse TOML: {fault.message}")

/-- The configuration in the file that was asked for, or else the profile's, which is written when
it is not there. -/
def configure (home : String) (invocation : Invocation) : IO Config := do
  match invocation.config with
  | some path => wanted (Config.ofText home (← IO.FS.readFile path))
  | none =>
    let profile : Profile := if invocation.dev then .development else .production
    let path := profile.configFile home
    let file ← readExisting path
    let (config, text) ← wanted (Config.load home profile file)
    if file.isNone then writeInDirectory path text
    return config

def clock : IO Instant := do
  return ⟨(← Std.Time.Timestamp.now).toMillisecondsSinceUnixEpoch.val⟩

/-- The workspace kept at a path, or an empty one. -/
def openWorkspace (path : String) : IO Workspace := do
  let now ← clock
  match ← readExisting path with
  | none => return ⟨.empty, now, 0⟩
  | some text => match Workspace.ofText? now text with
    | some w => return w
    | none => throw (.userError s!"The store at {path} cannot be read")

/-- Runs a command, with the file that it names outside the program. -/
def perform (t : Terminal) : Command → IO (EStateM.Result CommandError Terminal Unit)
  | .restore path => do return restoreText path (← IO.FS.readFile path) t
  | .snapshot path => do
    match snapshotText t with
    | .error e t => return .error e t
    | .ok text t => do
      IO.FS.writeFile path text
      return print s!"Exported to {path}" t
  | command => return run command t

def finish (path : String) (t : Terminal) : IO Unit := do
  writeInDirectory path t.workspace.toText
  IO.print t.printed

/-- Runs an invocation and tells whether it went well. -/
def invoke (invocation : Invocation) : IO UInt32 := do
  let home := (← IO.getEnv "HOME").getD ""
  let config ← configure home invocation
  let path := config.storeFile home
  let workspace ← openWorkspace path
  match workspace.store.prepare with
  | (.error e, _) =>
    IO.eprintln e.message
    return 1
  | (.ok (), store) =>
    match ← perform ⟨{ workspace with store }, [], "", config.noteFolder⟩ invocation.command with
    | .ok () t =>
      finish path t
      return 0
    | .error e t =>
      finish path t
      IO.eprintln e.message
      return 1

/-- The whole program: 0 if all went well, 1 if the command failed, 2 if the words are none. -/
def start (words : List String) : IO UInt32 := do
  match parse words with
  | .ok invocation => invoke invocation
  | .error e =>
    IO.eprintln e.message
    return if e = .help ∨ e = .version then 0 else 2

end Planner

def main (words : List String) : IO UInt32 := Planner.start words

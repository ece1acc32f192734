import Planner.Entity.Note
import Planner.Toml.Reader.Document

/-!
The configuration: which store is used, what is logged, and where notes go. Each profile has a file
of its own for it under the home directory, and a store of its own.
-/
namespace Planner

inductive Profile
  | production
  | development
deriving DecidableEq

namespace Profile

def name : Profile → String
  | .production => "daybook"
  | .development => "daybook-dev"

def configFile (home : String) (profile : Profile) : String :=
  home ++ "/.config/" ++ profile.name ++ "/config.toml"

def storeFile (home : String) (profile : Profile) : String :=
  home ++ "/.local/share/" ++ profile.name ++ "/daybook.db"

end Profile

/-- A path in which a tilde in front of the first slash stands for the home directory. -/
def expandHome (home path : String) : String :=
  match path.toList with
  | '~' :: '/' :: '/' :: rest => String.ofList ('/' :: rest)
  | '~' :: '/' :: rest => home ++ "/" ++ String.ofList rest
  | _ => path

structure Config where
  storagePath : String
  logLevel : String := "warn"
  noteFolder : String := Note.defaultFolder
  version : UInt32 := 1
deriving DecidableEq

namespace Config

/-- The version that is written. -/
def currentVersion : UInt32 := 1

/-- The configuration of a profile that has no file yet. -/
def initial (home : String) (profile : Profile) : Config :=
  { storagePath := profile.storeFile home }

def textField? (key : String) (fields : Toml.Fields) : Except Toml.Fault (Option String) :=
  match fields.lookup key with
  | none => .ok none
  | some (.text s) => .ok (some s)
  | some _ => .error (.wrongType key "a text")

def versionField? (key : String) (fields : Toml.Fields) : Except Toml.Fault (Option UInt32) :=
  match fields.lookup key with
  | none => .ok none
  | some (.integer n) =>
    if 0 ≤ n ∧ n < UInt32.size then .ok (some (UInt32.ofNat n.toNat))
    else .error (.wrongType key "a version")
  | some _ => .error (.wrongType key "a version")

/-- The configuration that a text holds. What it leaves out is as in production at first. -/
def ofText (home text : String) : Except Toml.Fault Config := do
  let fields ← Toml.read text
  let absent := initial home .production
  return {
    storagePath := (← textField? "storage_path" fields).getD absent.storagePath
    logLevel := (← textField? "log_level" fields).getD absent.logLevel
    noteFolder := (← textField? "default_note_folder" fields).getD absent.noteFolder
    version := (← versionField? "config_version" fields).getD absent.version }

/-- The line of one key. -/
def line (key : String) (value : List Char) : List Char :=
  key.toList ++ [' ', '=', ' '] ++ value ++ ['\n']

def toText (c : Config) : String :=
  String.ofList <| line "storage_path" (Toml.quote c.storagePath.toList)
    ++ line "log_level" (Toml.quote c.logLevel.toList)
    ++ line "default_note_folder" (Toml.quote c.noteFolder.toList)
    ++ line "config_version" (Nat.toDigits 10 c.version.toNat)

/-- The configuration as it is saved, with the current version. -/
def stamped (c : Config) : Config := { c with version := currentVersion }

/-- The configuration of a profile, and the text of its file afterwards: one that is there stays
as it is, and a missing one is written. An empty path stands for the profile's own store. -/
def load (home : String) (profile : Profile) (file : Option String) :
    Except Toml.Fault (Config × String) :=
  match file with
  | some text => do
    let config ← ofText home text
    let path := if config.storagePath.isEmpty then profile.storeFile home else config.storagePath
    return ({ config with storagePath := path }, text)
  | none =>
    let config := (initial home profile).stamped
    .ok (config, config.toText)

/-- Where the store is. -/
def storeFile (home : String) (c : Config) : String := expandHome home c.storagePath

end Config
end Planner

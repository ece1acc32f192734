/-!
How the words of a command line are taken apart: options by name, each once, and the rest by
place. A value is only looked at when the next argument begins, so a word that no command knows is
reported before a value in front of it that is refused.
-/
namespace Planner.CommandLine

/-- Why a command line is refused, or what it asks for instead of a command. -/
inductive UsageError
  | help
  | version
  | helpForMissing
  | missingCommand
  | unknownCommand
  | unknownArgument
  | missingArgument
  | missingValue
  | needlessValue
  | refusedValue
  | repeated
deriving DecidableEq

def UsageError.message : UsageError → String
  | .help | .helpForMissing => "Usage: daybook [--config <path>] [--dev] <command> [<argument>...]"
  | .version => "daybook 0.1.0"
  | .missingCommand => "a command is missing"
  | .unknownCommand => "there is no such command"
  | .unknownArgument => "there is no such argument"
  | .missingArgument => "an argument is missing"
  | .missingValue => "an option has no value"
  | .needlessValue => "a flag takes no value"
  | .refusedValue => "a value is none of the choices"
  | .repeated => "an argument is given twice"

inductive ArgumentKind
  /-- Taken by its place. -/
  | positional
  /-- Taken by its name, with a value. -/
  | option
  /-- Taken by its name, without a value. -/
  | flag
  /-- Ends the reading with the given answer. -/
  | asking (answer : UsageError)

structure Argument where
  name : String
  kind : ArgumentKind
  required : Bool := false
  short : Option Char := none
  accepts : String → Bool := fun _ => true

/-- The arguments that were given, with their values; a flag has an empty one. -/
abbrev Matches := List (String × String)

def Matches.has (name : String) (given : Matches) : Bool := (given.lookup name).isSome

/-- A command line of which some words were read. -/
structure Progress where
  given : Matches := []
  /-- The argument read last, until its value is looked at. -/
  pending : Option (Argument × Option String) := none
  /-- How many words were taken by their place. -/
  places : Nat := 0
  /-- Whether a double dash was read, after which nothing is a name. -/
  dashed : Bool := false

namespace Progress

/-- Whether the next word belongs to an option. -/
def awaitsValue (p : Progress) : Bool :=
  match p.pending with
  | some (_, none) => true
  | _ => false

def store (argument : Argument) (value : String) (p : Progress) : Except UsageError Progress :=
  if p.given.has argument.name then .error .repeated
  else if argument.accepts value then
    .ok { p with given := p.given ++ [(argument.name, value)] }
  else .error .refusedValue

/-- Looks at the value of the argument read last. -/
def settle (p : Progress) : Except UsageError Progress :=
  match p.pending with
  | none => .ok p
  | some (_, none) => .error .missingValue
  | some (argument, some value) => { p with pending := none }.store argument value

def takeFlag (argument : Argument) (p : Progress) : Except UsageError Progress := do
  let p ← p.settle
  match argument.kind with
  | .asking answer => .error answer
  | _ => p.store argument ""

/-- An option with its value in the same word. -/
def takeAttached (argument : Argument) (value : String) (p : Progress) :
    Except UsageError Progress := do
  (← p.settle).store argument value

/-- An option whose value is the next word. -/
def takeName (argument : Argument) (p : Progress) : Except UsageError Progress := do
  return { ← p.settle with pending := some (argument, none) }

end Progress

def ArgumentKind.takesValue : ArgumentKind → Bool
  | .option => true
  | _ => false

def ArgumentKind.isPositional : ArgumentKind → Bool
  | .positional => true
  | _ => false

def named? (name : String) (arguments : List Argument) : Option Argument :=
  arguments.find? fun a => !a.kind.isPositional && a.name == name

def short? (c : Char) (arguments : List Argument) : Option Argument :=
  arguments.find? fun a => a.short == some c

/-- The words of an argument with two dashes: its name, and the value behind an equals sign. -/
def takeLong (arguments : List Argument) (word : List Char) (p : Progress) :
    Except UsageError Progress :=
  let name := String.ofList (word.takeWhile (· ≠ '='))
  match named? name arguments, word.dropWhile (· ≠ '=') with
  | none, _ => .error .unknownArgument
  | some argument, _ :: value =>
    if argument.kind.takesValue then p.takeAttached argument (String.ofList value)
    else .error .needlessValue
  | some argument, [] =>
    if argument.kind.takesValue then p.takeName argument else p.takeFlag argument

/-- The letters of an argument with one dash. What follows the letter of an option is its value,
with or without an equals sign. -/
def takeShort (arguments : List Argument) : List Char → Progress → Except UsageError Progress
  | [], p => .ok p
  | c :: rest, p =>
    match short? c arguments with
    | none => .error .unknownArgument
    | some argument =>
      if argument.kind.takesValue then
        match rest with
        | [] => p.takeName argument
        | '=' :: value => p.takeAttached argument (String.ofList value)
        | value => p.takeAttached argument (String.ofList value)
      else do takeShort arguments rest (← p.takeFlag argument)

/-- A word without a name: the value that an option waits for, or the next argument by place.
`stray` is the error for a word that has no place. -/
def takeWord (arguments : List Argument) (stray : UsageError) (word : String) (p : Progress) :
    Except UsageError Progress :=
  match p.dashed, p.pending with
  | false, some (argument, none) => .ok { p with pending := some (argument, some word) }
  | _, _ =>
    match (arguments.filter (·.kind.isPositional))[p.places]? with
    | some argument => do
      return { ← p.settle with pending := some (argument, some word), places := p.places + 1 }
    | none => .error stray

/-- Takes one word of a command line. -/
def take (arguments : List Argument) (stray : UsageError) (word : String) (p : Progress) :
    Except UsageError Progress :=
  if p.dashed then takeWord arguments stray word p
  else match word.toList with
    | ['-', '-'] => .ok { p with dashed := true }
    | '-' :: '-' :: rest => takeLong arguments rest p
    | '-' :: c :: rest => takeShort arguments (c :: rest) p
    | _ => takeWord arguments stray word p

/-- The arguments that all the words of a command give it. -/
def takeAll (arguments : List Argument) (words : List String) : Except UsageError Matches := do
  let p ← words.foldlM (fun p word => take arguments .unknownArgument word p) {}
  let p ← p.settle
  if arguments.all fun a => !a.required || p.given.has a.name then return p.given
  else .error .missingArgument

end Planner.CommandLine

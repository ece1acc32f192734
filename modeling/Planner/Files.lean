/-!
Text files and the paths that lead to them. A path begins in a working directory, or at the root; the
directories above are there, but there are no others to enter.
-/
namespace Planner

inductive FileError
  | notFound
  | isDirectory
  | notDirectory
  | nameTooLong
  | zeroInName
deriving DecidableEq

def FileError.message : FileError → String
  | .notFound => "No such file or directory (os error 2)"
  | .isDirectory => "Is a directory (os error 21)"
  | .notDirectory => "Not a directory (os error 20)"
  | .nameTooLong => "File name too long (os error 36)"
  | .zeroInName => "file name contained an unexpected NUL byte"

/-- A directory, seen from the working one. -/
inductive Place
  | above (levels : Nat)
  | root
deriving DecidableEq

/-- The directory around a place; the root lies in itself. -/
def Place.parent : Place → Place
  | .above levels => .above (levels + 1)
  | .root => .root

/-- A name in a directory. -/
structure Spot where
  place : Place
  name : String
deriving DecidableEq

/-- The files that were written, with their texts. -/
abbrev Files := List (Spot × String)

namespace Files

/-- The most bytes of a whole path, and of a single name in it. -/
def pathLimit : Nat := 4095

def nameLimit : Nat := 255

/-- What a path leads to. -/
inductive Target
  | directory
  /-- A name at the end of the path; `slashed` if only a directory may stand there. -/
  | entry (spot : Spot) (slashed : Bool)
  | broken (cause : FileError)

/-- Follows the steps of a path from a place. Nothing but the directories above can be entered. -/
def walk (files : Files) (slashed : Bool) : Place → List String → Target
  | _, [] => .directory
  | place, step :: rest =>
    if step = "." then walk files slashed place rest
    else if step = ".." then walk files slashed place.parent rest
    else if rest.isEmpty then .entry ⟨place, step⟩ slashed
    else if nameLimit < step.utf8ByteSize then .broken .nameTooLong
    else if (files.lookup ⟨place, step⟩).isSome then .broken .notDirectory
    else .broken .notFound

def target (files : Files) (path : String) : Target :=
  if path.contains '\x00' then .broken .zeroInName
  else if path.isEmpty then .broken .notFound
  else if pathLimit < path.utf8ByteSize then .broken .nameTooLong
  else
    let start := if path.startsWith "/" then .root else .above 0
    walk files (path.endsWith "/") start ((path.splitOn "/").filter (· ≠ ""))

def read (path : String) (files : Files) : Except FileError String :=
  match files.target path with
  | .directory => .error .isDirectory
  | .broken cause => .error cause
  | .entry spot slashed =>
    if nameLimit < spot.name.utf8ByteSize then .error .nameTooLong
    else match files.lookup spot with
      | none => .error .notFound
      | some text => if slashed then .error .notDirectory else .ok text

def put (spot : Spot) (text : String) : Files → Files
  | [] => [(spot, text)]
  | (s, old) :: rest => if s = spot then (spot, text) :: rest else (s, old) :: put spot text rest

/-- Writes a file; a name with a slash behind it is always taken for a directory. -/
def write (path text : String) (files : Files) : Except FileError Files :=
  match files.target path with
  | .directory => .error .isDirectory
  | .broken cause => .error cause
  | .entry spot slashed =>
    if slashed then .error .isDirectory
    else if nameLimit < spot.name.utf8ByteSize then .error .nameTooLong
    else .ok (files.put spot text)

end Files
end Planner

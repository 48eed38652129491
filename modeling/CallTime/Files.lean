import CallTime.Location
import CallTime.Fault
import CallTime.Text.Utf8

/-!
Reading files: what can go wrong, and directories given as data.
-/

namespace CallTime

inductive Unreadable where
  | missing
  /-- It is a directory, lies below a file, or may not be read. -/
  | refused
  deriving DecidableEq

/-- The content of files, seen from the working directory. -/
abbrev Files := Location → Except Unreadable (List UInt8)

/-- The text of a file; `none` when there is no content that is a text. -/
def Files.text (files : Files) (l : Location) : Except Unreadable (Option String) :=
  (files l).map fileText?

structure Directory where
  /-- By the names on the way; a directory has no content. -/
  entries : List (List String × Option (List UInt8)) := []

namespace Directory

inductive Place where
  | directory
  | file (content : List UInt8)

/-- What stands at the end of a way. Every directory on the way to an entry exists. -/
def at? (d : Directory) (way : List String) : Option Place :=
  match d.entries.find? (·.1 = way) with
  | some (_, some content) => some (.file content)
  | some (_, none) => some .directory
  | none => if way.isEmpty || d.entries.any (way.isPrefixOf ·.1) then some .directory else none

/-- Follows names one by one. Nothing is known above the directory itself. -/
def follow (d : Directory) : (way : List String) → List String → Except Unreadable Place
  | way, [] => match d.at? way with
    | some p => .ok p
    | none => .error .missing
  | way, name :: rest => match d.at? way with
    | some .directory =>
      if name ≠ ".." then follow d (way ++ [name]) rest
      else if way.isEmpty then .error .missing
      else follow d way.dropLast rest
    | some (.file _) => .error .refused
    | none => .error .missing

def files (d : Directory) : Files := fun l =>
  if !l.root.isEmpty then .error (if l.parts.isEmpty then .refused else .missing)
  else match d.follow [] l.parts with
    | .ok (.file content) => .ok content
    | .ok .directory => .error .refused
    | .error e => .error e

end Directory

end CallTime

import CallTime.Fault
import CallTime.Location
import CallTime.OrderedMap
import CallTime.Text.Lower

/-!
The languages whose sources can be read. Names and file extensions are looked up without regard to
case.
-/

namespace CallTime

/-- A language and the adapter that reads it. Two adapters may agree in all the rest. -/
structure Language where
  name : String
  extensions : List String
  adapter : Nat := 0
  deriving DecidableEq

structure Languages where
  byName : OrderedMap String Language := {}
  /-- From extensions to names, both in lower case. -/
  byExtension : OrderedMap String String := {}

namespace Languages

/-- A language that is registered again replaces the former one and keeps its extensions. -/
def register (r : Languages) (l : Language) : Languages where
  byName := r.byName.insert (lower l.name) l
  byExtension := l.extensions.foldl (fun m e => m.insert (lower e) (lower l.name)) r.byExtension

def names (r : Languages) : List String := r.byName.keys.mergeSort fun a b => decide (a ≤ b)

def named? (r : Languages) (name : String) : Option Language := r.byName.get? (lower name)

def withExtension? (r : Languages) (extension : String) : Option Language :=
  (r.byExtension.get? (lower extension)).bind r.byName.get?

/-- The language of a file: the chosen one, else the one of its extension, else the default. -/
def forFile (r : Languages) (file : Location) (chosen : Option String) (default : String) :
    Except Fault Language :=
  match chosen with
  | some name => match r.named? name with
    | some l => .ok l
    | none => .error (.never "unknown language adapter"
        [("language_id", name), ("registered", ",".intercalate r.names)])
  | none =>
    let own := if file.suffix.isEmpty then none else r.withExtension? file.suffix
    match own, r.named? default with
    | some l, _ => .ok l
    | none, some l => .ok l
    | none, none => .error (.never "no default language adapter" [("language_id", default)])

end Languages

namespace Language

def python : Language where
  name := "python"
  extensions := [".py"]

def registered : Languages := ({} : Languages).register python

end Language

end CallTime

import CallTime.Files
import CallTime.Format.Toml.Read
import CallTime.Settings

/-!
Settings from a TOML file.
-/

namespace CallTime.Settings

def fileIn (root : Location) : Location := root.join (.ofText "sightline.toml")

/-- The tables of a file. A file that cannot be read or is malformed has none. -/
def readTables (files : Files) (file : Location) : Except Fault (OrderedMap Text Value) :=
  match files.text file with
  | .error _ => .ok {}
  | .ok none => .error .undecodable
  | .ok (some text) => match TomlText.read text with
    | .error .malformed => .ok {}
    | result => result

def insightTable (tables : OrderedMap Text Value) : OrderedMap Text Value :=
  match tables.get? "insight" with
  | some (.table entries) => ⟨entries⟩
  | _ => {}

end CallTime.Settings

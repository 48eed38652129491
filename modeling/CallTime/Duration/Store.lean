import CallTime.Artifact.Basic
import CallTime.OrderedMap
import CallTime.Value.Convert

/-!
Durations measured by telemetry, by the qualified names of functions.
-/

namespace CallTime

structure Durations where
  values : OrderedMap Text Value := {}

namespace Durations

def measured? (d : Durations) (f : Function) : Option Value :=
  match d.values.get? f.qualified with
  | some .null => none
  | v => v

def record (d : Durations) (name : Text) (duration : Value) : Except Fault Durations := do
  return ⟨d.values.insert name (.int (← duration.toInt))⟩

def size (d : Durations) : Nat := d.values.size

end Durations

end CallTime

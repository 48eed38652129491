import CallTime.Duration.Store
import CallTime.Files
import CallTime.Format.Json
import CallTime.Log
import CallTime.Value.Print

/-!
Measured durations from a file: one JSON object from qualified names to numbers.
-/

namespace CallTime.Durations

def logSource : String := "sightline.insight.durations"

def warning (message : String) : LogEntry := ⟨.warning, logSource, message⟩

/-- The entries of a file. What is no JSON object has none. A whole number with too many digits is
an error of its own. -/
def entries (files : Files) (file : Location) :
    Except Fault (List (Text × Value)) × List LogEntry :=
  let unreadable := (.ok [], [warning ("cannot read durations from " ++ file.text)])
  match files.text file with
  | .error .missing => (.ok [], [warning ("durations file " ++ file.text ++ " does not exist")])
  | .error .refused | .ok none => unreadable
  | .ok (some text) => match JsonText.read text with
    | .ok (.table entries) => (.ok entries, [])
    | .ok _ => (.ok [], [warning ("durations file " ++ file.text ++ " is not a JSON object")])
    | .error .malformed => unreadable
    | .error e => (.error e, [])

def isNumeric : Value → Bool
  | .int _ | .float _ => true
  | _ => false

/-- Records the numeric entries in order and logs the others. It stops at a number without a whole
part. -/
def recordAll : Durations → List (Text × Value) → Except Fault Durations × List LogEntry
  | d, [] => (.ok d, [])
  | d, (name, v) :: rest =>
    if isNumeric v then match d.record name v with
      | .ok d => recordAll d rest
      | .error e => (.error e, [])
    else
      let (result, log) := recordAll d rest
      let entry? := v.literal.toOption.map fun text => LogEntry.mk .debug logSource
        ("ignoring non-numeric duration for " ++ name.shown ++ ": " ++ text)
      (result, entry?.toList ++ log)

def load (files : Files) (file : Location) : Except Fault Durations × List LogEntry :=
  match entries files file with
  | (.error e, log) => (.error e, log)
  | (.ok entries, log) =>
    let (result, more) := recordAll {} entries
    (result, log ++ more)

end CallTime.Durations

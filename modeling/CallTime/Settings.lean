import CallTime.OrderedMap
import CallTime.Text.Lower
import CallTime.Value.Convert

/-!
How much an analysis may do, and how that is read from a table of settings.
-/

namespace CallTime

structure Settings where
  /-- Whether the functions that calls resolve to are analysed on the way. -/
  analyzeResolved : Bool := true
  maxTicks : Value := .null

namespace Settings

/-- A switch is on for true, for whole numbers other than zero and for a few words. -/
def flag : Value → Bool
  | .bool b => b
  | .int n => n != 0
  | .str s => match s.chars? with
    | some cs => lower (String.ofList (trimBlank cs)) ∈ ["1", "true", "yes", "on"]
    | none => false
  | _ => false

def positive? : Value → Option Int
  | .int n => if 0 < n then some n else none
  | .str s => (s.chars?.bind readInt?).filter (0 < ·)
  | _ => none

def ofTable (t : OrderedMap Text Value) : Settings where
  analyzeResolved := match t.get? "analyze_resolved_functions" with
    | none | some .null => true
    | some v => flag v
  maxTicks := match (t.get? "max_ticks").bind positive? with
    | some n => .int n
    | none => .null

def ofValue : Value → Settings
  | .table entries => ofTable ⟨entries⟩
  | _ => {}

/-- Writes the chosen settings over the defaults. A null chooses nothing. -/
def merge (chosen defaults : OrderedMap Text Value) : OrderedMap Text Value :=
  chosen.entries.foldl (fun t e => if e.2.isNull then t else t.insert e.1 e.2) defaults

end Settings

end CallTime

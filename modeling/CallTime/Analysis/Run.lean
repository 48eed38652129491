import CallTime.Duration.Store
import CallTime.Insight.Store
import CallTime.Path.Enumerate
import CallTime.Settings

/-!
The state of an analysis run and the steps that change it.
-/

namespace CallTime

structure Detector where
  flags : Forest → Insights → Artifact → Except Fault Bool

namespace Detector

def selfCall : Detector where
  flags forest _ call := match forest.target? call with
    | some g => .ok ((forest.enclosing? call).map Function.id = some g.id)
    | none => .ok false

def always : Detector := ⟨fun _ _ _ => .ok true⟩

def never : Detector := ⟨fun _ _ _ => .ok false⟩

end Detector

namespace Analysis

inductive Watch where
  | nothing
  | nodes
  | calls
  | kinds
  | paths
  /-- A pass over paths that is not implemented. -/
  | missing
  deriving DecidableEq

inductive Pass where
  | recursiveCall
  | callDuration
  | pathDuration
  | watch (w : Watch)
  deriving DecidableEq

/-- Passes over paths run once per function, after the passes over its nodes. -/
def Pass.overPaths : Pass → Bool
  | .pathDuration => true
  | .watch .paths => true
  | .watch .missing => true
  | _ => false

def defaultPasses : List Pass := [.recursiveCall, .callDuration, .pathDuration]

inductive Sighting where
  | node (a : Artifact) (stack : List String)
  | call (a : Artifact) (root : Option String)
  | other (a : Artifact)
  | branch (a : Artifact)
  | paths (function : String) (count : Nat) (root : Option String)

inductive Event where
  | entered (function : Function)
  | logged (entry : LogEntry)
  | seen (sighting : Sighting)

def Event.entry? : Event → Option LogEntry
  | .logged entry => some entry
  | _ => none

structure Setup where
  forest : Forest
  durations : Durations := {}
  settings : Settings := {}
  detector : Detector := .selfCall
  passes : List Pass := defaultPasses

structure State where
  insights : Insights
  clock : Clock
  /-- The functions under analysis, the innermost first. -/
  stack : List Function := []
  events : Array Event := #[]

end Analysis

/-- A step of a run. A step that fails leaves behind what it did so far. -/
abbrev Run := ExceptT Fault (StateM Analysis.State)

namespace Run

open Analysis

def record (e : Event) : Run Unit := modify fun s => { s with events := s.events.push e }

def log (source message : String) : Run Unit := record (.logged ⟨.debug, source, message⟩)

def tick (n : Nat) : Run Unit := fun s =>
  let (r, clock) := s.clock.spend (.int n)
  (r, { s with clock })

def timed {α : Type} (x : Timed α) : Run α := fun s =>
  let (r, clock) := x.run s.clock
  (r, { s with clock })

def insights : Run Insights := return (← get).insights

def writeData (i : NodeId) (d : InsightData Note) : Run Unit :=
  modify fun s => { s with insights := s.insights.write i d }

def set (i : NodeId) (k : Key) (e : Entry Note) : Run Bool := do
  let d := (← insights).data i
  if let some message := d.refusal? k e then log "sightline.insight.data" message
  let (d, accepted) := d.set k e
  writeData i d
  return accepted

def remove (i : NodeId) (k : Key) : Run Unit := do
  writeData i (((← insights).data i).remove k)

def isActive (f : Function) : Run Bool := return (← get).stack.any (·.id = f.id)

def root? : Run (Option Function) := return (← get).stack.head?

/-- Runs `body` with `f` on the stack and takes it off again, whatever happens. -/
def within (f : Function) (body : Run Unit) : Run Unit := fun s =>
  let (r, s) := body.run { s with stack := f :: s.stack }
  (r, { s with stack := s.stack.tail })

def pathsOf (forest : Forest) (f : Function) : Run (List Path) := do
  match (← insights).paths? f with
  | some paths => return paths
  | none =>
    let paths ← timed (Path.enumerate forest f)
    record (.logged (Path.builtMessage f paths))
    let _ ← set f.id .paths (.note (.paths paths))
    return paths

end Run

end CallTime

import CallTime.Analysis.Analyze
import CallTime.Report.Build
import CallTime.Source.Lower

/-!
A module under analysis: its nodes, the durations measured so far, and what the analysis knows about
the nodes. What one analysis finds out is there for the next.
-/

namespace CallTime

structure Session where
  forest : Forest
  module : Artifact
  /-- The functions of the module. -/
  functions : List Function
  durations : Durations := {}
  insights : Insights := {}

namespace Session

/-- Builds the functions and a module that holds every function of the table. -/
def start (drafts : List Draft) (durations : Durations) : Session :=
  let build : StateM Forest Artifact := do
    let _ ← Forest.buildList drafts
    let functions := (← get).functions.values
    Forest.add none (.block · (functions.map Function.artifact))
  let (module, forest) := build.run {}
  { forest, module, functions := forest.functions.values, durations }

def ofSource (module source : String) (durations : Durations) : Except Fault Session := do
  return start (← Source.load module source) durations

/-- A node by name: the module, else a label, else a key of the table of functions. -/
def node? (s : Session) (name : String) : Option Artifact :=
  if name = "$module" then some s.module
  else match s.forest.named.get? name with
    | some a => some a
    | none => (s.forest.functions.get? name).map Function.artifact

def function? (s : Session) (name : String) : Option Function :=
  (s.node? name).bind Function.ofArtifact?

def grow {α : Type} (s : Session) (x : StateM Forest α) : α × Session :=
  let (a, forest) := x.run s.forest
  (a, { s with forest })

/-- Runs a step outside of an analysis, without a budget, and gives the log of it too. -/
def performLogged {α : Type} (s : Session) (x : Run α) :
    Except Fault α × List LogEntry × Session :=
  let (result, state) := x.run { insights := s.insights, clock := .unbounded 0 }
  (result, state.events.toList.filterMap Analysis.Event.entry?, { s with insights := state.insights })

def perform {α : Type} (s : Session) (x : Run α) : Except Fault α × Session :=
  let (result, _, s) := s.performLogged x
  (result, s)

def analyze (s : Session) (settings : Settings) (detector : Detector)
    (passes : List Analysis.Pass) (a : Artifact) : Analysis.Outcome × Session :=
  let setup : Analysis.Setup :=
    { forest := s.forest, durations := s.durations, settings, detector, passes }
  let outcome := Analysis.analyze setup s.insights a
  (outcome, { s with insights := outcome.insights })

def record (s : Session) (name : String) (duration : Value) : Except Fault Nat × Session :=
  match s.durations.record name duration with
  | .ok durations => (.ok durations.size, { s with durations })
  | .error e => (.error e, s)

def enumerate (s : Session) (clock : Clock) (f : Function) : Except Fault (List Path) × Clock :=
  (Path.enumerate s.forest f).run clock

def setPathDuration (s : Session) (f : Function) (index : Int) (duration : Insight) :
    Except Fault (Bool × Path) × Session :=
  s.perform do
    let paths ← Run.pathsOf s.forest f
    let place := if index < 0 then index + paths.length else index
    match if place < 0 then none else paths[place.toNat]? with
    | none => throw .outOfRange
    | some p =>
      let (data, accepted) := p.data.set .pathDuration (.insight duration)
      let p := { p with data }
      let _ ← Run.set f.id .paths (.note (.paths (paths.set place.toNat p)))
      return (accepted, p)

/-- The paths of a function that can be taken with the arguments, and their mean duration. -/
def candidates (s : Session) (f : Function) (arguments : List Artifact) :
    Except Fault (List Path × Option Int) × Session :=
  s.perform do
    let paths ← Path.candidates arguments (← Run.pathsOf s.forest f)
    return (paths, ← Path.average paths)

def knownDurations (s : Session) (f : Function) : Except Fault (List (List Int)) × Session :=
  s.perform do
    let insights ← Run.insights
    (← Run.pathsOf s.forest f).mapM (Analysis.knownDurations insights ·)

def report (s : Session) (path : Option String) (language module : String) :
    Except Fault Report × List LogEntry × Session :=
  s.performLogged (Report.make s.forest path language module s.functions)

end Session

end CallTime

import CallTime.Analysis.Pass

/-!
Analysing a node and everything below it.
-/

namespace CallTime.Analysis

/-- The function a node is, unless it is the root of the visit. -/
def nested? (root : NodeId) (a : Artifact) : Option Function :=
  if a.id = root then none else Function.ofArtifact? a

/-- Runs the passes at each node in pre-order, one tick a node. A function other than the root is
entered instead. -/
def visitFrom (setup : Setup) (enter : Function → Run Unit) (root : NodeId) : List Artifact → Run Unit
  | [] => pure ()
  | a :: pending =>
    match nested? root a with
    | some g => do
      enter g
      visitFrom setup enter root pending
    | none => do
      Run.tick 1
      (setup.passes.filter (!·.overPaths)).forM (visit setup enter a)
      visitFrom setup enter root (a.children ++ pending)
termination_by pending => Artifact.sizeList pending
decreasing_by
  · have := Artifact.size_eq_children a
    simp only [Artifact.sizeList]; omega
  · simp [Artifact.sizeList, Artifact.size_eq_children a]

def noteSignature (f : Function) : Run Unit := do
  let signature ← Signature.of ((← Run.insights).effectiveArgs f)
  let _ ← Run.set f.id .analyzedArgs (.note (.signature signature))

/-- Begins with a function and says whether it is to be analysed: not if it is under analysis
already. -/
def begin (setup : Setup) (f : Function) : Run Bool := do
  Run.record (.entered f)
  let active ← Run.isActive f
  let _ ← Run.pathsOf setup.forest f
  if active then return false
  Run.log "sightline.insight.analyzer" ("analyzing " ++ f.qualified)
  noteSignature f
  return true

/-- Analyses a function unless it is under analysis already. No function is entered twice in a chain,
so `depth`, the number of functions that may still be entered, does not run out when it starts at the
number of functions. -/
def analyzeFunction (setup : Setup) : (depth : Nat) → Function → Run Unit
  | 0, f => do
    Run.record (.entered f)
    let _ ← Run.pathsOf setup.forest f
  | depth + 1, f => do
    if ← begin setup f then
      Run.within f do
        visitFrom setup (analyzeFunction setup depth) f.id [f.artifact]
        (setup.passes.filter (·.overPaths)).forM (visitPaths f)

def functionCount (forest : Forest) : Nat :=
  (forest.nodes.toList.filter Artifact.isFunction).length

structure Outcome where
  /-- The paths, when a function was analysed. -/
  result : Except Fault (Option (List Path))
  insights : Insights
  /-- Missing when the clock could not be made. -/
  clock : Option Clock
  depth : Option Nat
  events : Array Event

def Outcome.log (o : Outcome) : List LogEntry := o.events.toList.filterMap Event.entry?

/-- Analyses a node and everything below it. -/
def analyze (setup : Setup) (insights : Insights) (a : Artifact) : Outcome :=
  match Clock.forLimit setup.settings.maxTicks with
  | .error e => ⟨.error e, insights, none, none, #[]⟩
  | .ok clock =>
    let enter := analyzeFunction setup (functionCount setup.forest)
    let run : Run (Option (List Path)) := match Function.ofArtifact? a with
      | some f => do
        enter f
        return (← Run.insights).paths? f
      | none => do
        visitFrom setup enter a.id [a]
        return none
    let (result, s) := run.run { insights, clock }
    ⟨result, s.insights, some s.clock, some s.stack.length, s.events⟩

end CallTime.Analysis

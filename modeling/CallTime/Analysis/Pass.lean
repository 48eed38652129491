import CallTime.Analysis.Run

/-!
The passes of the analysis.

The pass over calls gives each resolved call a duration: the mean over the paths of the called
function that its arguments allow, or the measured duration of that function, which outranks the
mean. The pass over paths then adds up the durations of the calls on each path.
-/

namespace CallTime.Analysis

/-- Replaces each argument that is a parameter of the function around the call by what reached that
function, where something did. -/
def resolveArguments (forest : Forest) (insights : Insights) (call : Artifact) :
    Except Fault (List Artifact) :=
  let enclosing := forest.enclosing? call
  match enclosing.bind insights.callArgs? with
  | none => .ok call.children
  | some outer => call.children.mapM fun argument =>
    match argument with
    | .reference _ _ (some index) =>
      if (forest.enclosing? argument).map Function.id = enclosing.map Function.id then do
        return (← argumentAt outer index).getD argument
      else .ok argument
    | _ => .ok argument

/-- The measured duration of a function: from telemetry, else a measured insight on the function. -/
def measuredDuration (durations : Durations) (insights : Insights) (f : Function) :
    Except Fault (Option Int) :=
  match durations.measured? f with
  | some v => do return some (← v.toInt)
  | none => match insights.duration? f.id with
    | some i => if i.derived then .ok none else do return some (← i.value.toInt)
    | none => .ok none

def knownDurations (insights : Insights) (p : Path) : Except Fault (List Int) :=
  let nodes := p.artifacts.flatMap Artifact.walk
  let found := nodes.filterMap fun
    | .call info _ _ _ => insights.duration? info.id
    | _ => none
  found.mapM fun i => i.value.toInt

def callName : Artifact → String
  | .call _ name _ _ => name.getD "None"
  | _ => "None"

def markRecursive (setup : Setup) (call : Artifact) : Run Unit := do
  if ← setup.detector.flags setup.forest (← Run.insights) call then
    Run.log "sightline.insight.passes.recursive_call" ("marking recursive call " ++ callName call)
    let _ ← Run.set call.id .recursiveCall (.note (.value (.bool true)))

def callSource : String := "sightline.insight.passes.call_duration"

/-- A function is analysed on the way unless that is switched off, the call is recursive, the function
is under analysis already, or its paths were computed for these very arguments. -/
def shouldAnalyze (setup : Setup) (call : Artifact) (g : Function) : Run Bool := do
  if !setup.settings.analyzeResolved then return false
  if ← (((← Run.insights).recursive? call.id).getD (.bool false)).truth then return false
  if ← Run.isActive g then
    Run.log callSource (g.qualified ++ " is already being analyzed")
    return false
  let insights ← Run.insights
  match insights.paths? g with
  | none => return true
  | some paths =>
    if !paths.all (Path.has .pathDuration) then return true
    let current ← Signature.of (insights.effectiveArgs g)
    match insights.analyzedArgs? g with
    | some analyzed => if analyzed.agrees current then return false
    | none => pure ()
    Run.log callSource (g.qualified ++ " was analyzed for other arguments")
    return true

def dropDerived (call : Artifact) : Run Unit := do
  if let some current := (← Run.insights).duration? call.id then
    if current.derived then
      Run.remove call.id .functionDuration
      Run.remove call.id .durationSource

def estimate (forest : Forest) (call : Artifact) (g : Function) : Run (Option Int) := do
  let arguments := (← Run.insights).effectiveArgs g
  if fullyResolved arguments then
    let paths ← Run.pathsOf forest g
    Path.average (← Path.candidates arguments paths)
  else
    Run.log callSource ("arguments of call " ++ callName call ++ " are not fully resolved")
    return none

def storeDuration (call : Artifact) (duration : Int) (source : String) : Run Unit := do
  let insight : Insight := ⟨.functionDuration, .int duration, true⟩
  if ← Run.set call.id .functionDuration (.insight insight) then
    let _ ← Run.set call.id .durationSource (.note (.value (.str source)))

def propagate (forest : Forest) (call : Artifact) (g : Function) : Run Unit := do
  let arguments ← resolveArguments forest (← Run.insights) call
  let _ ← Run.set g.id .callArgs (.note (.arguments arguments))

/-- Hands the arguments on and says whether the called function is to be analysed now. If it is not,
its paths are there afterwards. -/
def approach (setup : Setup) (call : Artifact) (g : Function) : Run Bool := do
  propagate setup.forest call g
  if ← shouldAnalyze setup call g then return true
  let _ ← Run.pathsOf setup.forest g
  return false

def settle (setup : Setup) (call : Artifact) (g : Function) : Run Unit := do
  let estimated ← estimate setup.forest call g
  match ← measuredDuration setup.durations (← Run.insights) g, estimated with
  | some measured, _ => storeDuration call measured "measured"
  | none, some duration => storeDuration call duration "paths"
  | none, none => dropDerived call

/-- The duration of a call; `enter` analyses a function. -/
def callDuration (setup : Setup) (enter : Function → Run Unit) (call : Artifact) : Run Unit :=
  match setup.forest.target? call with
  | none => Run.log callSource ("no resolved function for call " ++ callName call)
  | some g => do
    if ← approach setup call g then enter g
    settle setup call g

def forgetDerived (p : Path) : Path :=
  match p.data.insight? .pathDuration with
  | some i => if i.derived then { p with data := p.data.remove .pathDuration } else p
  | none => p

def sumInsight (durations : List Int) : Entry Value :=
  .insight ⟨.pathDuration, .int (durations.foldr (· + ·) 0), true⟩

def addUp (p : Path) (durations : List Int) : Path :=
  { p with data := (p.data.set .pathDuration (sumInsight durations)).1 }

def sumRefusals (paths : List Path) (durations : List (List Int)) : List String :=
  (paths.zip durations).filterMap fun (p, ds) => p.data.refusal? .pathDuration (sumInsight ds)

/-- The duration of every path, when some call on some path has one; a path whose calls are all
unknown then counts as zero. Otherwise no derived duration stays. -/
def pathDurations (f : Function) : Run Unit := do
  let insights ← Run.insights
  let paths := (insights.paths? f).getD []
  let durations ← paths.mapM (knownDurations insights ·)
  let updated :=
    if durations.all List.isEmpty then paths.map forgetDerived else paths.zipWith addUp durations
  if !durations.all List.isEmpty then
    (sumRefusals paths durations).forM (Run.log "sightline.insight.data" ·)
  if (insights.paths? f).isSome then
    let _ ← Run.set f.id .paths (.note (.paths updated))

def visit (setup : Setup) (enter : Function → Run Unit) (a : Artifact) : Pass → Run Unit
  | .recursiveCall => match a with
    | .call _ _ _ _ => markRecursive setup a
    | _ => pure ()
  | .callDuration => match a with
    | .call _ _ _ _ => callDuration setup enter a
    | _ => pure ()
  | .watch .nodes => do
    Run.record (.seen (.node a ((← get).stack.reverse.map Function.name)))
  | .watch .calls => match a with
    | .call _ _ _ _ => do Run.record (.seen (.call a ((← Run.root?).map Function.name)))
    | _ => pure ()
  | .watch .kinds => match a with
    | .branch _ _ _ _ => Run.record (.seen (.branch a))
    | _ => Run.record (.seen (.other a))
  | _ => pure ()

def visitPaths (f : Function) : Pass → Run Unit
  | .pathDuration => pathDurations f
  | .watch .paths => do
    let count := (((← Run.insights).paths? f).getD []).length
    Run.record (.seen (.paths f.name count ((← Run.root?).map Function.name)))
  | .watch .missing => throw .unimplemented
  | _ => pure ()

end CallTime.Analysis

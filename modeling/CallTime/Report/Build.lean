import CallTime.Analysis.Run
import CallTime.Report.Basic

/-!
Making a report of what the analysis found out.
-/

namespace CallTime

def InsightType.text : InsightType → String
  | .functionDuration => "function_duration"
  | .pathDuration => "path_duration"

def fieldOr {α : Type} : Option α → Except Fault α
  | some a => .ok a
  | none => .error .invalid

namespace FunctionEntry

/-- What is known about a function. Its paths are built if they are not there yet. -/
def make (forest : Forest) (f : Function) : Run FunctionEntry := do
  let paths ← Run.pathsOf forest f
  let estimated ← Path.average paths
  let pathDurations ← paths.mapM fun p => fieldOr <| match p.duration? with
    | some v => Field.nullable? Field.integer? v
    | none => some none
  return {
    function := f.qualified
    line := f.info.line.map Int.ofNat
    pathCount := paths.length
    pathDurations, estimated }

end FunctionEntry

namespace CallEntry

/-- Where a duration came from; one without a source is measured unless it is derived. -/
def sourceOf (insights : Insights) (call : Artifact) (duration : Insight) : Value :=
  match (insights.durationSource? call.id).getD .null with
  | .null => .str (if duration.derived then "paths" else "measured")
  | v => v

def make (forest : Forest) (insights : Insights) (f : Function) (call : Artifact)
    (name : Option String) (duration : Insight) : Except Fault CallEntry := do
  let value ← duration.value.toInt
  let source ← fieldOr (Field.nullable? Field.text? (sourceOf insights call duration))
  return {
    function := some f.qualified
    callee := name
    resolved := (forest.target? call).map Function.qualified
    line := call.line.map Int.ofNat
    duration := { type := duration.type.text, value, derived := duration.derived }
    source }

def all (forest : Forest) (insights : Insights) (f : Function) : Except Fault (List CallEntry) :=
  let calls := f.body.walk.filterMap fun
    | .call info name arguments target =>
      (insights.duration? info.id).map fun d => (Artifact.call info name arguments target, name, d)
    | _ => none
  calls.mapM fun (call, name, d) => make forest insights f call name d

end CallEntry

namespace Report

def make (forest : Forest) (path : Option String) (language module : String)
    (functions : List Function) : Run Report := do
  let entries ← functions.mapM (FunctionEntry.make forest)
  let calls ← functions.mapM fun f => do CallEntry.all forest (← Run.insights) f
  return { path, language, module, functions := entries, calls := calls.flatten }

end Report

end CallTime

import CallTime.Artifact.Evaluate
import CallTime.Artifact.Forest
import CallTime.Artifact.Print
import CallTime.Insight.Data

/-!
Paths: the branch outcomes of one way through a function, and the nodes met on it.
-/

namespace CallTime

structure Path where
  function : Function
  /-- Branches in the order met, each with its outcome. -/
  conditions : List (Artifact × Bool) := []
  artifacts : List Artifact := []
  data : InsightData Value := {}

namespace Path

/-- What is said of a branch that cannot be on a path, unless the branch cannot be written. -/
def misplaced (f : Function) (reason : String) (branch : Artifact) : Fault :=
  match branch.text with
  | .ok text => .never reason [("function", f.qualified), ("condition", text)]
  | .error e => e

def check (forest : Forest) (f : Function) :
    (seen : List (NodeId × Bool)) → List (Artifact × Bool) → Except Fault Unit
  | _, [] => .ok ()
  | seen, (branch, taken) :: rest =>
    if (forest.enclosing? branch).map Function.id ≠ some f.id then
      .error (misplaced f "path condition outside owning function" branch)
    else match seen.find? (·.1 = branch.id) with
      | some (_, prior) =>
        if prior ≠ taken then .error (misplaced f "contradictory path condition" branch)
        else check forest f seen rest
      | none => check forest f ((branch.id, taken) :: seen) rest

def make (forest : Forest) (f : Function) (conditions : List (Artifact × Bool))
    (artifacts : List Artifact) : Except Fault Path := do
  check forest f [] conditions
  return { function := f, conditions, artifacts }

def duration? (p : Path) : Option Value :=
  match (p.data.insight? .pathDuration).map Insight.value with
  | some .null => none
  | v => v

def has (k : Key) (p : Path) : Bool := p.data.has k

def conditionOf : Artifact → Option Artifact
  | .branch _ condition _ _ => condition
  | _ => none

def admits (arguments : List Artifact) : List (Artifact × Bool) → Except Fault Bool
  | [] => .ok true
  | (branch, taken) :: rest => do
    if ← Artifact.branchPossible (conditionOf branch) taken arguments then admits arguments rest
    else return false

def candidates (arguments : List Artifact) : List Path → Except Fault (List Path)
  | [] => .ok []
  | p :: ps => do
    let possible ← admits arguments p.conditions
    let rest ← candidates arguments ps
    return if possible then p :: rest else rest

/-- The mean of the durations that are known, toward zero. It goes through a binary64 quotient. -/
def average (paths : List Path) : Except Fault (Option Int) :=
  match paths.filterMap duration? with
  | [] => .ok none
  | durations => do
    let total ← durations.foldlM Value.add (.int 0)
    let mean ← total.div (.int durations.length)
    return some (← mean.toInt)

def checkMember (f : Function) (p : Path) : Except Fault Unit :=
  if p.function.id = f.id then .ok ()
  else .error (.never "procedural path belongs to another function"
    [("function", f.qualified), ("path_function", p.function.qualified)])

end Path

end CallTime

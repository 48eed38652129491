import CallTime.Clock
import CallTime.Log
import CallTime.Path.Basic

/-!
Enumerating the paths through a function.
-/

namespace CallTime

namespace Path

/-- A way through the first statements of a body. It is finished once it has returned. -/
structure Partial where
  conditions : List (Artifact × Bool) := []
  artifacts : List Artifact := []
  finished : Bool := false

namespace Partial

def meet (p : Partial) (a : Artifact) : Partial := { p with artifacts := p.artifacts ++ [a] }

def meetOption (p : Partial) : Option Artifact → Partial
  | some a => p.meet a
  | none => p

def fork (p : Partial) (branch : Artifact) (taken : Bool) : Partial :=
  { conditions := p.conditions ++ [(branch, taken)], artifacts := p.artifacts }

end Partial

mutual

/-- Every way on through a statement, for a way that is not finished. Blocks are entered, functions
are skipped, and each branch costs two ticks. -/
def explore : Artifact → Partial → Timed (List Partial)
  | .block _ statements, p => exploreAll statements [p]
  | .function _ _ _ _ _, p => return [p]
  | .branch info condition thenBranch elseBranch, p => do
    Timed.tick 2
    let branch := Artifact.branch info condition thenBranch elseBranch
    let p := p.meetOption condition
    let thens ← exploreOption thenBranch (p.fork branch true)
    let elses ← exploreOption elseBranch (p.fork branch false)
    return thens ++ elses
  | .ret info value, p => return [{ p.meet (.ret info value) with finished := true }]
  | a, p => return [p.meet a]
termination_by structural a => a

def exploreOption : Option Artifact → Partial → Timed (List Partial)
  | none, p => return [p]
  | some a, p => explore a p
termination_by structural a => a

def exploreAll : List Artifact → List Partial → Timed (List Partial)
  | [], live => return live
  | s :: ss, live => do
    let next ← live.mapM fun p => if p.finished then return [p] else explore s p
    exploreAll ss next.flatten
termination_by structural ss => ss

end

def enumerate (forest : Forest) (f : Function) : Timed (List Path) := do
  let ways ← explore f.body {}
  ways.mapM fun p => (Path.make forest f p.conditions p.artifacts : Except Fault Path)

def builtMessage (f : Function) (paths : List Path) : LogEntry :=
  ⟨.debug, "sightline.insight.path",
    "built " ++ toString paths.length ++ " paths for " ++ f.qualified⟩

end Path

end CallTime

import Std.Data.HashMap
import CallTime.Path.Basic

/-!
What the analysis knows about the nodes of a forest.
-/

namespace CallTime

/-- The values of a list of arguments, `none` for an unknown one. -/
abbrev Signature := List (Option Value)

namespace Signature

def of (arguments : List Artifact) : Except Fault Signature :=
  arguments.mapM fun a => a.closedValue.value

/-- Values agree when they are of one kind and the same; unknown values agree. -/
def agreesAt : Option Value → Option Value → Bool
  | none, none => true
  | some a, some b => a.kind = b.kind && a.same b
  | _, _ => false

def agrees : Signature → Signature → Bool
  | [], [] => true
  | a :: as, b :: bs => agreesAt a b && agrees as bs
  | _, _ => false

end Signature

inductive Note where
  | arguments (arguments : List Artifact)
  | paths (paths : List Path)
  | signature (signature : Signature)
  | value (value : Value)

namespace Note

def arguments? : Note → Option (List Artifact)
  | .arguments as => some as
  | _ => none

def paths? : Note → Option (List Path)
  | .paths ps => some ps
  | _ => none

def signature? : Note → Option Signature
  | .signature s => some s
  | _ => none

def value? : Note → Option Value
  | .value v => some v
  | _ => none

end Note

/-- The data of every node; a node that was never written to has none. -/
structure Insights where
  cells : Std.HashMap NodeId (InsightData Note) := {}

namespace Insights

def data (s : Insights) (i : NodeId) : InsightData Note := s.cells.getD i {}

def write (s : Insights) (i : NodeId) (d : InsightData Note) : Insights := ⟨s.cells.insert i d⟩

@[simp] theorem data_write (s : Insights) (i j : NodeId) (d : InsightData Note) :
    (s.write i d).data j = if i = j then d else s.data j := by
  simp [data, write, Std.HashMap.getD_insert]

@[simp] theorem data_empty (i : NodeId) : ({} : Insights).data i = {} := by
  simp [data]

def get? (s : Insights) (i : NodeId) (k : Key) : Option (Entry Note) := (s.data i).get? k

def duration? (s : Insights) (i : NodeId) : Option Insight := (s.data i).insight? .functionDuration

def callArgs? (s : Insights) (f : Function) : Option (List Artifact) :=
  ((s.data f.id).note? .callArgs).bind Note.arguments?

def paths? (s : Insights) (f : Function) : Option (List Path) :=
  ((s.data f.id).note? .paths).bind Note.paths?

def analyzedArgs? (s : Insights) (f : Function) : Option Signature :=
  ((s.data f.id).note? .analyzedArgs).bind Note.signature?

def durationSource? (s : Insights) (i : NodeId) : Option Value :=
  ((s.data i).note? .durationSource).bind Note.value?

def recursive? (s : Insights) (i : NodeId) : Option Value :=
  ((s.data i).note? .recursiveCall).bind Note.value?

/-- The arguments a function is analysed with: those that reached it, else its parameters. -/
def effectiveArgs (s : Insights) (f : Function) : List Artifact :=
  (s.callArgs? f).getD f.parameters

end Insights

def fullyResolved (arguments : List Artifact) : Bool := !arguments.any Artifact.isParameter

end CallTime

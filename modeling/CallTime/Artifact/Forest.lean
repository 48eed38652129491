import CallTime.Artifact.Basic
import CallTime.OrderedMap

/-!
Building nodes. A `Draft` describes a node before it exists; a `Forest` holds every node built so far,
who its parent is, and the table of functions that calls are resolved in.
-/

namespace CallTime

inductive Draft where
  | block (line : Option Nat) (statements : List Draft)
  | reference (line : Option Nat) (name : String) (parameter : Option Int)
  | literal (line : Option Nat) (value : Value) (place : Option Place := none)
  | binary (line : Option Nat) (operator : String) (left right : Option Draft)
  | ret (line : Option Nat) (value : Option Draft)
  | branch (line : Option Nat) (condition thenBranch elseBranch : Option Draft)
  | call (line : Option Nat) (name : Option String) (arguments : List Draft) (target : Option String)
  /-- With a key the function is entered in the table of functions. -/
  | function (line : Option Nat) (name qualified : String) (parameters : List Draft) (body : Draft)
      (key : Option String)
  | labelled (label : String) (draft : Draft)
  /-- The node that was built under a label. -/
  | shared (label : String)

instance : Inhabited Draft := ⟨.block none []⟩

structure Forest where
  nodes : Array Artifact := #[]
  parents : Array (Option NodeId) := #[]
  labels : OrderedMap NodeId String := {}
  /-- The latest node of each label. -/
  named : OrderedMap String Artifact := {}
  functions : OrderedMap String Function := {}

namespace Forest

def parent? (f : Forest) (i : NodeId) : Option NodeId := (f.parents[i]?).join

/-- The children of a new node take it for their parent, also those that had one. -/
def adopt (parents : Array (Option NodeId)) (parent : NodeId) (children : List Artifact) :
    Array (Option NodeId) :=
  children.foldl (fun ps c => ps.modify c.id fun _ => some parent) parents

def add (line : Option Nat) (make : Info → Artifact) : StateM Forest Artifact := fun f =>
  let a := make ⟨f.nodes.size, line⟩
  (a, { f with
    nodes := f.nodes.push a
    parents := adopt (f.parents.push none) a.id a.children })

def register (key : Option String) (a : Artifact) : StateM Forest Unit :=
  match key, Function.ofArtifact? a with
  | some k, some g => modify fun f => { f with functions := f.functions.insert k g }
  | _, _ => pure ()

def name (label : String) (a : Artifact) : StateM Forest Unit :=
  modify fun f => { f with labels := f.labels.insert a.id label, named := f.named.insert label a }

mutual

def build : Draft → StateM Forest Artifact
  | .block line statements => do
    let ss ← buildList statements
    add line (.block · ss)
  | .reference line name parameter => add line (.reference · name parameter)
  | .literal line value place => add line (.literal · value place)
  | .binary line operator left right => do
    let l ← buildOption left
    let r ← buildOption right
    add line (.binary · operator l r)
  | .ret line value => do
    let v ← buildOption value
    add line (.ret · v)
  | .branch line condition thenBranch elseBranch => do
    let c ← buildOption condition
    let t ← buildOption thenBranch
    let e ← buildOption elseBranch
    add line (.branch · c t e)
  | .call line name arguments target => do
    let as ← buildList arguments
    add line (.call · name as target)
  | .function line name qualified parameters body key => do
    let ps ← buildList parameters
    let b ← build body
    let a ← add line (.function · name qualified ps b)
    register key a
    return a
  | .labelled label draft => do
    let a ← build draft
    name label a
    return a
  | .shared label => do
    match (← get).named.get? label with
    | some a => return a
    | none => add none (.block · [])
termination_by structural d => d

def buildList : List Draft → StateM Forest (List Artifact)
  | [] => return []
  | d :: ds => do
    let a ← build d
    let as ← buildList ds
    return a :: as
termination_by structural ds => ds

def buildOption : Option Draft → StateM Forest (Option Artifact)
  | none => return none
  | some d => do return some (← build d)
termination_by structural d => d

end

/-- Follows the parents for at most `fuel` steps. -/
def enclosingFrom (f : Forest) : (fuel : Nat) → NodeId → Option Function
  | 0, _ => none
  | fuel + 1, i => match f.parent? i with
    | none => none
    | some p => match f.nodes[p]?.bind Function.ofArtifact? with
      | some g => some g
      | none => enclosingFrom f fuel p

/-- The nearest function strictly above a node. A parent is younger than its children, so the way up
is no longer than the forest. -/
def enclosing? (f : Forest) (a : Artifact) : Option Function := f.enclosingFrom f.nodes.size a.id

def target? (f : Forest) : Artifact → Option Function
  | .call _ _ _ (some key) => f.functions.get? key
  | _ => none

def label? (f : Forest) (a : Artifact) : Option String := f.labels.get? a.id

end Forest

end CallTime

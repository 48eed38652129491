import CallTime.Value.Object

/-!
The nodes of an analysed program, whatever language it was written in.

A node is a tree that carries its identity: two occurrences of one id are one node, shared.
-/

namespace CallTime

abbrev NodeId := Nat

/-- Which node this is, and the source line it starts on, if it has one. -/
structure Info where
  id : NodeId
  line : Option Nat := none
  deriving DecidableEq

inductive Artifact where
  | block (info : Info) (statements : List Artifact)
  /-- A name; `parameter` is its place among the parameters of the function, if it is one. -/
  | reference (info : Info) (name : String) (parameter : Option Int)
  /-- A constant; `place` is where it is written, if several nodes may hold it. -/
  | literal (info : Info) (value : Value) (place : Option Place := none)
  /-- A negation has its operand on the left. -/
  | binary (info : Info) (operator : String) (left right : Option Artifact)
  | ret (info : Info) (value : Option Artifact)
  | branch (info : Info) (condition thenBranch elseBranch : Option Artifact)
  /-- `target` is the key of the called function in the table of functions. -/
  | call (info : Info) (name : Option String) (arguments : List Artifact) (target : Option String)
  | function (info : Info) (name qualified : String) (parameters : List Artifact) (body : Artifact)

instance : Inhabited Artifact := ⟨.block ⟨0, none⟩ []⟩

namespace Artifact

def info : Artifact → Info
  | .block info _ => info
  | .reference info _ _ => info
  | .literal info _ _ => info
  | .binary info _ _ _ => info
  | .ret info _ => info
  | .branch info _ _ _ => info
  | .call info _ _ _ => info
  | .function info _ _ _ _ => info

def id (a : Artifact) : NodeId := a.info.id

def line (a : Artifact) : Option Nat := a.info.line

def children : Artifact → List Artifact
  | .block _ statements => statements
  | .reference _ _ _ => []
  | .literal _ _ _ => []
  | .binary _ _ left right => left.toList ++ right.toList
  | .ret _ value => value.toList
  | .branch _ condition thenBranch elseBranch =>
    condition.toList ++ thenBranch.toList ++ elseBranch.toList
  | .call _ _ arguments _ => arguments
  | .function _ _ _ parameters body => parameters ++ [body]

def isFunction : Artifact → Bool
  | .function _ _ _ _ _ => true
  | _ => false

/-- A reference to a parameter of its function. -/
def isParameter : Artifact → Bool
  | .reference _ _ parameter => parameter.isSome
  | _ => false

mutual

def size : Artifact → Nat
  | .block _ statements => 1 + sizeList statements
  | .reference _ _ _ => 1
  | .literal _ _ _ => 1
  | .binary _ _ left right => 1 + (sizeOption left + sizeOption right)
  | .ret _ value => 1 + sizeOption value
  | .branch _ condition thenBranch elseBranch =>
    1 + (sizeOption condition + sizeOption thenBranch + sizeOption elseBranch)
  | .call _ _ arguments _ => 1 + sizeList arguments
  | .function _ _ _ parameters body => 1 + (sizeList parameters + body.size)
termination_by structural a => a

def sizeList : List Artifact → Nat
  | [] => 0
  | a :: as => a.size + sizeList as
termination_by structural as => as

def sizeOption : Option Artifact → Nat
  | none => 0
  | some a => a.size
termination_by structural a => a

end

@[simp] theorem sizeList_append (as bs : List Artifact) :
    sizeList (as ++ bs) = sizeList as + sizeList bs := by
  induction as with
  | nil => simp [sizeList]
  | cons a as ih => simp [sizeList, ih]; omega

@[simp] theorem sizeList_toList (a : Option Artifact) : sizeList a.toList = sizeOption a := by
  cases a <;> simp [sizeList, sizeOption]

theorem size_eq_children (a : Artifact) : a.size = 1 + sizeList a.children := by
  cases a <;> simp [size, children, sizeList, Nat.add_assoc]

def walkFrom : List Artifact → List Artifact
  | [] => []
  | a :: pending => a :: walkFrom (a.children ++ pending)
termination_by pending => sizeList pending
decreasing_by simp [sizeList, size_eq_children a]

def walk (a : Artifact) : List Artifact := walkFrom [a]

end Artifact

structure Function where
  info : Info
  name : String
  qualified : String
  parameters : List Artifact
  body : Artifact

instance : Inhabited Function := ⟨⟨⟨0, none⟩, "", "", [], default⟩⟩

namespace Function

def id (f : Function) : NodeId := f.info.id

def artifact (f : Function) : Artifact :=
  .function f.info f.name f.qualified f.parameters f.body

def ofArtifact? : Artifact → Option Function
  | .function info name qualified parameters body => some ⟨info, name, qualified, parameters, body⟩
  | _ => none

@[simp] theorem ofArtifact?_artifact (f : Function) : ofArtifact? f.artifact = some f := rfl

@[simp] theorem id_artifact (f : Function) : f.artifact.id = f.id := rfl

theorem artifact_injective {f g : Function} (h : f.artifact = g.artifact) : f = g := by
  cases f
  cases g
  cases h
  rfl

def parameter? (f : Function) (name : String) : Option Artifact :=
  f.parameters.find? fun
    | .reference _ n _ => n == name
    | _ => false

end Function

end CallTime

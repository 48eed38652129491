import CallTime.Artifact.Basic
import CallTime.Value.Operator

/-!
Three-valued evaluation of conditions. An expression has a value only when everything it depends on
is a known constant; otherwise it is unknown, `none`, and both outcomes of a branch on it are
possible.
-/

namespace CallTime

/-- A known object, or `none` for an unknown one. -/
abbrev Reading := Except Fault (Option Object)

namespace Reading

/-- A false left operand decides; over an unknown one only a false right operand does. -/
def conjunction (left : Option Object) (right : Reading) : Reading := do
  match left with
  | some a => if ← a.value.truth then right else return some a
  | none => match ← right with
    | some b => if ← b.value.truth then return none else return some b
    | none => return none

/-- A true left operand decides; over an unknown one only a true right operand does. -/
def disjunction (left : Option Object) (right : Reading) : Reading := do
  match left with
  | some a => if ← a.value.truth then return some a else right
  | none => match ← right with
    | some b => if ← b.value.truth then return some b else return none
    | none => return none

def negation : Option Object → Reading
  | some a => do return some ⟨.bool !(← a.value.truth), .made⟩
  | none => .ok none

/-- An operator that fails on its operands leaves the result unknown, but not one that looks for an
entry in vain. -/
def operation (op : String) (left right : Option Object) : Reading :=
  match left, right, Operator.ofText? op with
  | some a, some b, some o => match o.apply a b with
    | .ok c => .ok (some c)
    | .error .missingKey => .error .missingKey
    | .error _ => .ok none
  | _, _, _ => .ok none

def binary (op : String) (left right : Reading) : Reading := do
  let l ← left
  if op = "and" then conjunction l right
  else if op = "or" then disjunction l right
  else if op = "not" then negation l
  else operation op l (← right)

def value (r : Reading) : Except Fault (Option Value) := do return (← r).map Object.value

end Reading

/-- The argument at a place; a negative place counts from the end. There is none past the end. -/
def argumentAt {α : Type} (arguments : List α) (index : Int) : Except Fault (Option α) :=
  if arguments.length ≤ index then .ok none
  else if 0 ≤ index then .ok arguments[index.toNat]?
  else if index + arguments.length < 0 then .error .outOfRange
  else .ok arguments[(index + arguments.length).toNat]?

namespace Artifact

def literalOrigin (id : NodeId) : Option Place → Origin
  | some place => .written place
  | none => .node id

mutual

def valueWith (bound : Info → Option Int → Reading) : Artifact → Reading
  | .literal info value place => .ok (some ⟨value, literalOrigin info.id place⟩)
  | .reference info _ parameter => bound info parameter
  | .binary _ op left right => Reading.binary op (valueOfOption bound left) (valueOfOption bound right)
  | _ => .ok none
termination_by structural a => a

def valueOfOption (bound : Info → Option Int → Reading) : Option Artifact → Reading
  | none => .ok none
  | some a => a.valueWith bound
termination_by structural a => a

end

/-- The rule for references when no arguments are given: none has a value. -/
def unbound (_ : Info) : Option Int → Reading
  | none => .ok none
  | some index => do
    let _ ← argumentAt ([] : List Artifact) index
    return none

def closedValue (a : Artifact) : Reading := a.valueWith unbound

/-- The rule for references inside a function that was given arguments. An argument is evaluated
outside of the function, and a parameter that stands for itself is unknown. -/
def boundTo (arguments : List Artifact) (info : Info) : Option Int → Reading
  | none => .ok none
  | some index => do
    match ← argumentAt arguments index with
    | none => return none
    | some a => if a.id = info.id then return none else a.closedValue

def value (arguments : List Artifact) (a : Artifact) : Reading := a.valueWith (boundTo arguments)

def conditionValue (arguments : List Artifact) (condition : Option Artifact) : Reading :=
  valueOfOption (boundTo arguments) condition

/-- Whether a branch on the condition can have the outcome `taken`. A value without a truth value
allows both. -/
def branchPossible (condition : Option Artifact) (taken : Bool) (arguments : List Artifact) :
    Except Fault Bool := do
  match ← conditionValue arguments condition with
  | none => return true
  | some o => match o.value.truth with
    | .ok b => return b == taken
    | .error _ => return true

end Artifact

end CallTime

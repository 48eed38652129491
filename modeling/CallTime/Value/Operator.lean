import CallTime.Value.Object
import CallTime.Value.Order

/-!
The binary operators of conditions, apart from the logical ones.
-/

namespace CallTime

/-- The operators whose result depends on the values of their operands alone. -/
inductive ValueOperator where
  | equal | notEqual
  | order (o : Order)
  | add | sub | mul | div | floorDiv | mod
  | member | notMember
  deriving DecidableEq

inductive Operator where
  /-- Whether the operands are one object, or whether they are not. -/
  | identity (expected : Bool)
  | onValues (op : ValueOperator)
  deriving DecidableEq

namespace ValueOperator

def apply (op : ValueOperator) (a b : Value) : Except Fault Value :=
  match op with
  | .equal => .ok (.bool (a.equal b))
  | .notEqual => .ok (.bool !(a.equal b))
  | .order o => do return .bool (← a.order o b)
  | .add => a.add b
  | .sub => a.sub b
  | .mul => a.mul b
  | .div => a.div b
  | .floorDiv => a.floorDiv b
  | .mod => a.mod b
  | .member => do return .bool (← a.member b)
  | .notMember => do return .bool !(← a.member b)

/-- Some results are one of the operands. -/
def origin (op : ValueOperator) (a b : Object) : Origin :=
  match op with
  | .add => a.sum b
  | .mul => a.product b
  | .mod => a.remainder b
  | _ => .made

end ValueOperator

namespace Operator

def ofText? : String → Option Operator
  | "==" => some (.onValues .equal)
  | "!=" => some (.onValues .notEqual)
  | "<" => some (.onValues (.order .less))
  | "<=" => some (.onValues (.order .lessEqual))
  | ">" => some (.onValues (.order .greater))
  | ">=" => some (.onValues (.order .greaterEqual))
  | "+" => some (.onValues .add)
  | "-" => some (.onValues .sub)
  | "*" => some (.onValues .mul)
  | "/" => some (.onValues .div)
  | "//" => some (.onValues .floorDiv)
  | "%" => some (.onValues .mod)
  | "is" => some (.identity true)
  | "is not" => some (.identity false)
  | "in" => some (.onValues .member)
  | "not in" => some (.onValues .notMember)
  | _ => none

def apply (op : Operator) (a b : Object) : Except Fault Object :=
  match op with
  | .identity expected => .ok ⟨.bool (a.identical b == expected), .made⟩
  | .onValues op => do return ⟨← op.apply a.value b.value, op.origin a b⟩

end Operator

end CallTime

import CallTime.Fault
import CallTime.Text.Blank
import CallTime.Text.Digit
import CallTime.Value.Basic

/-!
Truth tests and conversion to a whole number.
-/

namespace CallTime

def digitsValue? (cs : List Char) : Option Nat :=
  let rec go : (afterDigit : Bool) → (n : Nat) → List Char → Option Nat
    | afterDigit, n, [] => if afterDigit then some n else none
    | afterDigit, n, c :: rest =>
      if c = '_' then if afterDigit then go false n rest else none
      else match digitValue? c with
        | some d => go true (10 * n + d) rest
        | none => none
  if maxDigits < (cs.filter (· ≠ '_')).length then none else go false 0 cs

def readInt? (cs : List Char) : Option Int :=
  match trimBlank cs with
  | '-' :: rest => (digitsValue? rest).map fun n => -(n : Int)
  | '+' :: rest => (digitsValue? rest).map fun n => (n : Int)
  | rest => (digitsValue? rest).map fun n => (n : Int)

namespace Value

def truth : Value → Except Fault Bool
  | .null => .ok false
  | .ellipsis => .ok true
  | .bool b => .ok b
  | .int n => .ok (n != 0)
  | .float x => .ok (!x.isZero)
  | .complex re im => .ok !(re.isZero && im.isZero)
  | .str s => .ok !s.isEmpty
  | .bytes b => .ok !b.isEmpty
  | .list items => .ok !items.isEmpty
  | .tuple items => .ok !items.isEmpty
  | .table entries => .ok !entries.isEmpty
  | .stubborn .wrongKind _ => .error .wrongKind
  | .stubborn .wrongValue _ => .error .wrongValue
  | .moment _ => .ok true

def toInt : Value → Except Fault Int
  | .bool b => .ok (if b then 1 else 0)
  | .int n => .ok n
  | .float (.nan _) => .error .wrongValue
  | .float (.infinite _) => .error .infinite
  | .float x => .ok x.truncate
  | .str s => match s.chars?.bind readInt? with
    | some n => .ok n
    | none => .error .wrongValue
  | .bytes b => match readInt? (b.map fun b => Char.ofNat b.toNat) with
    | some n => if b.all (· < 128) then .ok n else .error .wrongValue
    | none => .error .wrongValue
  | _ => .error .wrongKind

end Value

end CallTime

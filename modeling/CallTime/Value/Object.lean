import CallTime.Value.Arithmetic

/-!
Objects: what evaluation works on. Two objects may have equal values and still not be one.
-/

namespace CallTime

/-- Where a constant is written, from the innermost source that it is part of outward. -/
abbrev Place := List Nat

inductive Origin where
  /-- Made by an operation, each time anew. -/
  | made
  | node (id : Nat)
  /-- A constant of a source, which several nodes may hold. -/
  | written (place : Place)
  | part (whole : Origin) (index : Nat)
  | word (b : Bool)
  /-- A digit that was printed, each time anew. -/
  | digit
  deriving DecidableEq

def Origin.lasts : Origin → Bool
  | .made | .digit => false
  | .part whole _ => whole.lasts
  | _ => true

structure Object where
  value : Value
  origin : Origin := .made

/-- Values of which there is only one object: small whole numbers, empty sequences that cannot change,
and texts and byte strings of one character among them. -/
def Value.isUnique : Value → Bool
  | .null | .ellipsis | .bool _ => true
  | .int n => -5 ≤ n && n ≤ 256
  | .str s => match s.codes with
    | [] => true
    | [n] => n < 256
    | _ => false
  | .bytes b => b.length ≤ 1
  | .tuple items => items.isEmpty
  | _ => false

/-- The digits of a number in base `2^30` but one. -/
def moreDigits (n : Nat) : Nat := n.log2 / 30

def keepsDividend (m n : Int) : Bool :=
  let top (k : Int) : Nat := k.natAbs >>> (30 * moreDigits k.natAbs)
  let (p, q) := (moreDigits m.natAbs, moreDigits n.natAbs)
  (m < 0) = (n < 0) && 0 < q && (p < q || p = q && top m < top n)

namespace Object

def isUnique (o : Object) : Bool := o.value.isUnique && o.origin != .digit

def identical (a b : Object) : Bool :=
  a.origin.lasts && a.origin == b.origin ||
    a.isUnique && b.isUnique && a.value.kind == b.value.kind && a.value.equal b.value

def sum (a b : Object) : Origin :=
  let choose (left right : Bool) : Origin :=
    if right then a.origin else if left then b.origin else .made
  match a.value, b.value with
  | .str s, .str t => choose s.isEmpty t.isEmpty
  | .bytes s, .bytes t => choose s.isEmpty t.isEmpty
  | .tuple s, .tuple t => choose s.isEmpty t.isEmpty
  | _, _ => .made

def repeatable : Value → Bool
  | .str _ | .bytes _ | .tuple _ => true
  | _ => false

def product (a b : Object) : Origin :=
  if repeatable a.value && b.value.count? = some 1 then a.origin
  else if repeatable b.value && a.value.count? = some 1 then b.origin
  else .made

def keptOrigin (template argument : Object) : Kept → Origin
  | .template => template.origin
  | .argument => argument.origin
  | .item index => .part argument.origin index
  | .word b => .word b
  | .digit => .digit

def remainder (a b : Object) : Origin :=
  match a.value, b.value with
  | .str s, v => match Template.apply true s.codes v with
    | .ok (_, some kept) => keptOrigin a b kept
    | _ => .made
  | .int m, .int n => if keepsDividend m n then a.origin else .made
  | _, _ => .made

end Object

end CallTime

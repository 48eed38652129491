import CallTime.Fault
import CallTime.Value.Basic

/-!
Ordering and membership of values.
-/

namespace CallTime

inductive Order where
  | less | lessEqual | greater | greaterEqual
  deriving DecidableEq

def Order.holds : Order → Ordering → Bool
  | .less, o => o == .lt
  | .lessEqual, o => o != .gt
  | .greater, o => o == .gt
  | .greaterEqual, o => o != .lt

/-- Whether `part` stands somewhere in a list without gaps. -/
def isPart {α : Type} [BEq α] (part : List α) : List α → Bool
  | [] => part.isEmpty
  | x :: xs => part.isPrefixOf (x :: xs) || isPart part xs

def compareNats : List Nat → List Nat → Ordering
  | [], [] => .eq
  | [], _ :: _ => .lt
  | _ :: _, [] => .gt
  | a :: as, b :: bs => if a < b then .lt else if b < a then .gt else compareNats as bs

def Binary64.Extended.compare (a b : Binary64.Extended) : Ordering :=
  if a.lt b then .lt else if b.lt a then .gt else .eq

/-- Nothing holds between a NaN and another real number; a complex number has no order. -/
def Number.order (o : Order) : Number → Number → Except Fault Bool
  | .complex _ _, _ | _, .complex _ _ => .error .wrongKind
  | x, y => match x.extended?, y.extended? with
    | some x, some y => .ok (o.holds (x.compare y))
    | _, _ => .ok false

namespace Value

mutual

/-- Texts and byte strings stand in dictionary order. Lists and tuples are decided by the first items
that are not the same. -/
def order (o : Order) : Value → Value → Except Fault Bool
  | .str a, .str b => .ok (o.holds (compareNats a.codes b.codes))
  | .bytes a, .bytes b => .ok (o.holds (compareNats (a.map UInt8.toNat) (b.map UInt8.toNat)))
  | .list a, .list b => orderItems o a b
  | .tuple a, .tuple b => orderItems o a b
  | a, b => match Number.ofValue? a, Number.ofValue? b with
    | some x, some y => x.order o y
    | _, _ => .error .wrongKind
termination_by structural v => v

def orderItems (o : Order) : List Value → List Value → Except Fault Bool
  | [], [] => .ok (o.holds .eq)
  | [], _ :: _ => .ok (o.holds .lt)
  | _ :: _, [] => .ok (o.holds .gt)
  | a :: as, b :: bs => if a.same b then orderItems o as bs else a.order o b
termination_by structural vs => vs

end

mutual

def hashable : Value → Bool
  | .list _ => false
  | .table _ => false
  | .tuple items => hashableItems items
  | _ => true
termination_by structural v => v

def hashableItems : List Value → Bool
  | [] => true
  | v :: vs => v.hashable && hashableItems vs
termination_by structural vs => vs

end

/-- Whether `item` lies in `whole`: a part of a text or of a byte string, an item of a list or tuple, a
key of a table. -/
def member (item whole : Value) : Except Fault Bool :=
  match whole with
  | .str s => match item with
    | .str part => .ok (isPart part.codes s.codes)
    | _ => .error .wrongKind
  | .bytes bs => match item with
    | .bytes part => .ok (isPart part bs)
    | .bool b => .ok (bs.any fun x => x.toNat == if b then 1 else 0)
    | .int n =>
      if 0 ≤ n ∧ n < 256 then .ok (bs.any fun x => x.toNat == n.toNat) else .error .wrongValue
    | _ => .error .wrongKind
  | .list items | .tuple items => .ok (items.any (item.same ·))
  | .table entries =>
    if item.hashable then
      match item with
      | .str k => .ok (entries.any (·.1 == k))
      | _ => .ok false
    else .error .wrongKind
  | _ => .error .wrongKind

end Value

end CallTime

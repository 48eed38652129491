import CallTime.Value.Template

/-!
Sums, products and quotients of values. Whole numbers are unbounded; as soon as a floating-point
number takes part, the other operand is rounded to one.
-/

namespace CallTime

namespace Number

inductive Pair where
  | ints (a b : Int)
  | floats (x y : Binary64)
  | complexes (a b c d : Binary64)

def toBinary : Int → Except Fault Binary64
  | n => match Binary64.ofInt n with
    | .infinite _ => .error .tooLarge
    | x => .ok x

def parts : Number → Except Fault (Binary64 × Binary64)
  | .int n => do return (← toBinary n, .zero false)
  | .float x => .ok (x, .zero false)
  | .complex re im => .ok (re, im)

def pair : Number → Number → Except Fault Pair
  | .int a, .int b => .ok (.ints a b)
  | .int a, .float y => do return .floats (← toBinary a) y
  | .float x, .int b => do return .floats x (← toBinary b)
  | .float x, .float y => .ok (.floats x y)
  | x, y => do
    let (a, b) ← x.parts
    let (c, d) ← y.parts
    return .complexes a b c d

def add (x y : Number) : Except Fault Value := do
  match ← x.pair y with
  | .ints a b => return .int (a + b)
  | .floats x y => return .float (x.add y)
  | .complexes a b c d => return .complex (a.add c) (b.add d)

def sub (x y : Number) : Except Fault Value := do
  match ← x.pair y with
  | .ints a b => return .int (a - b)
  | .floats x y => return .float (x.sub y)
  | .complexes a b c d => return .complex (a.sub c) (b.sub d)

def mul (x y : Number) : Except Fault Value := do
  match ← x.pair y with
  | .ints a b => return .int (a * b)
  | .floats x y => return .float (x.mul y)
  | .complexes a b c d => return .complex ((a.mul c).sub (b.mul d)) ((a.mul d).add (b.mul c))

def complexDiv (a b c d : Binary64) : Except Fault Value :=
  if !c.abs.lt d.abs && !c.isNaN && !d.isNaN then
    if c.isZero then .error .divisionByZero
    else
      let ratio := d.div c
      let den := c.add (d.mul ratio)
      .ok (.complex ((a.add (b.mul ratio)).div den) ((b.sub (a.mul ratio)).div den))
  else if c.abs.lt d.abs then
    let ratio := c.div d
    let den := (c.mul ratio).add d
    .ok (.complex (((a.mul ratio).add b).div den) (((b.mul ratio).sub a).div den))
  else .ok (.complex (.nan none) (.nan none))

def intDiv (a b : Int) : Except Fault Binary64 :=
  if b = 0 then .error .divisionByZero
  else match Binary64.ofRatio ((a < 0) != (b < 0)) a.natAbs b.natAbs with
    | .infinite _ => .error .quotientTooLarge
    | x => .ok x

def div (x y : Number) : Except Fault Value := do
  match ← x.pair y with
  | .ints a b => return .float (← intDiv a b)
  | .floats x y => if y.isZero then .error .divisionByZero else return .float (x.div y)
  | .complexes a b c d => complexDiv a b c d

def floorDiv (x y : Number) : Except Fault Value := do
  match ← x.pair y with
  | .ints a b => if b = 0 then .error .divisionByZero else return .int (a.fdiv b)
  | .floats x y => if y.isZero then .error .divisionByZero else return .float (x.floorDiv y)
  | .complexes _ _ _ _ => .error .wrongKind

def mod (x y : Number) : Except Fault Value := do
  match ← x.pair y with
  | .ints a b => if b = 0 then .error .divisionByZero else return .int (a.fmod b)
  | .floats x y => if y.isZero then .error .divisionByZero else return .float (x.floorRem y)
  | .complexes _ _ _ _ => .error .wrongKind

end Number

def maxLength : Int := Nat.pow 2 63 - 1

def repeated {α : Type} (items : List α) (count : Int) : Except Fault (List α) :=
  if count < -maxLength - 1 ∨ maxLength < count * (max 1 items.length) then .error .tooLarge
  else if items.isEmpty then .ok []
  else .ok (List.replicate count.toNat items).flatten

namespace Value

def numeric (op : Number → Number → Except Fault Value) (a b : Value) : Except Fault Value :=
  match Number.ofValue? a, Number.ofValue? b with
  | some x, some y => op x y
  | _, _ => .error .wrongKind

def add : Value → Value → Except Fault Value
  | .str a, .str b => .ok (.str (a ++ b))
  | .bytes a, .bytes b => .ok (.bytes (a ++ b))
  | .list a, .list b => .ok (.list (a ++ b))
  | .tuple a, .tuple b => .ok (.tuple (a ++ b))
  | a, b => numeric Number.add a b

def sub : Value → Value → Except Fault Value := numeric Number.sub

def count? : Value → Option Int
  | .bool b => some (if b then 1 else 0)
  | .int n => some n
  | _ => none

def repetition? (items : Value) (count : Int) : Option (Except Fault Value) :=
  match items with
  | .str s => some do return .str ⟨← repeated s.codes count⟩
  | .bytes b => some do return .bytes (← repeated b count)
  | .list xs => some do return .list (← repeated xs count)
  | .tuple xs => some do return .tuple (← repeated xs count)
  | _ => none

def mul (a b : Value) : Except Fault Value :=
  match b.count?.bind a.repetition?, a.count?.bind b.repetition? with
  | some r, _ => r
  | none, some r => r
  | none, none => numeric Number.mul a b

def div : Value → Value → Except Fault Value := numeric Number.div

def floorDiv : Value → Value → Except Fault Value := numeric Number.floorDiv

/-- The remainder of numbers; a text or byte string is a template that takes the right operand. -/
def mod : Value → Value → Except Fault Value
  | .str s, b => do return .str ⟨(← Template.apply true s.codes b).1⟩
  | .bytes bs, b => do
    return .bytes ((← Template.apply false (bs.map UInt8.toNat) b).1.map Nat.toUInt8)
  | a, b => numeric Number.mod a b

end Value

end CallTime

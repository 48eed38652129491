/-!
Binary floating-point numbers of 64 bits, with exact integer arithmetic underneath.

Every finite number is a whole multiple of `2^-1074`. `Binary64.units` gives that multiple, and
every operation computes its exact result and rounds once with `Binary64.ofRatio`.
-/

namespace CallTime

/-- The finite number `(-1)^negative * significand * 2^exponent` has `significand < 2^53` and
`-1074 ≤ exponent ≤ 971`, and its significand is at least `2^52` unless the exponent is `-1074`.
A NaN that was written down carries the mark of where; a computed one carries none. -/
inductive Binary64 where
  | nan (mark : Option Nat)
  | infinite (negative : Bool)
  | finite (negative : Bool) (significand : Nat) (exponent : Int)
  deriving DecidableEq

/-- `num / den` rounded to a whole number, a half going to the even neighbour. -/
def roundDiv (num den : Nat) : Nat :=
  let q := num / den
  let r := num % den
  if 2 * r < den then q
  else if den < 2 * r then q + 1
  else if q % 2 = 0 then q else q + 1

/-- Multiplies the ratio `num / den` by `2^-e`. -/
def scaleRatio (num den : Nat) (e : Int) : Nat × Nat :=
  if 0 ≤ e then (num, den <<< e.toNat) else (num <<< (-e).toNat, den)

namespace Binary64

def minExponent : Int := -1074

def maxExponent : Int := 971

def zero (negative : Bool) : Binary64 := .finite negative 0 minExponent

/-- The exponent at which `num / den` has a significand of 53 bits, or the least exponent there is. -/
def exponentOf (num den : Nat) : Int :=
  let e := (num.log2 : Int) - (den.log2 : Int) - 52
  let scaled := scaleRatio num den e
  let e := if scaled.1 < scaled.2 <<< 52 then e - 1 else e
  max e minExponent

def pack (negative : Bool) (significand : Nat) (exponent : Int) : Binary64 :=
  let (m, e) :=
    if significand = 1 <<< 53 then (1 <<< 52, exponent + 1) else (significand, exponent)
  if maxExponent < e then .infinite negative else .finite negative m e

/-- The number nearest to `± num / den`, a tie going to the even significand. -/
def ofRatio (negative : Bool) (num den : Nat) : Binary64 :=
  if num = 0 then zero negative
  else
    let e := exponentOf num den
    let scaled := scaleRatio num den e
    pack negative (roundDiv scaled.1 scaled.2) e

def ofInt (n : Int) : Binary64 := ofRatio (n < 0) n.natAbs 1

/-- How many units of `2^-1074` a finite number holds. -/
def units : Binary64 → Int
  | .finite negative m e =>
    let n : Int := (m <<< (e - minExponent).toNat : Nat)
    if negative then -n else n
  | _ => 0

def unitsPerOne : Nat := 1 <<< 1074

/-- The number nearest to `num / den` units; `negative` is the sign of a zero. -/
def ofUnits (negative : Bool) (num : Int) (den : Nat) : Binary64 :=
  ofRatio (if num = 0 then negative else num < 0) num.natAbs (den * unitsPerOne)

def isNaN : Binary64 → Bool
  | .nan _ => true
  | _ => false

def negative : Binary64 → Bool
  | .nan _ => false
  | .infinite n => n
  | .finite n _ _ => n

def isZero : Binary64 → Bool
  | .finite _ m _ => m == 0
  | _ => false

def ofBits (bits : UInt64) : Binary64 :=
  let n := bits.toNat
  let negative := n >>> 63 == 1
  let biased := (n >>> 52) % 2048
  let fraction := n % Nat.pow 2 52
  if biased = 2047 then if fraction = 0 then .infinite negative else .nan none
  else if biased = 0 then .finite negative fraction minExponent
  else .finite negative (fraction + Nat.pow 2 52) ((biased : Int) - 1075)

def toBits (x : Binary64) : UInt64 :=
  let sign (negative : Bool) : Nat := if negative then 1 <<< 63 else 0
  let n : Nat := match x with
    | .nan _ => 0x7ff8000000000000
    | .infinite negative => sign negative + 0x7ff0000000000000
    | .finite negative m e =>
      if m < Nat.pow 2 52 then sign negative + m
      else sign negative + ((e + 1075).toNat <<< 52) + (m - Nat.pow 2 52)
  n.toUInt64

/-- A real number or an infinity, in units of `2^-1074`. -/
inductive Extended where
  | bottom
  | real (units : Int)
  | top
  deriving DecidableEq

def Extended.ofInt (n : Int) : Extended := .real (n * unitsPerOne)

def Extended.lt : Extended → Extended → Bool
  | .bottom, .bottom => false
  | .bottom, _ => true
  | .real a, .real b => a < b
  | .real _, .top => true
  | _, _ => false

def extended? : Binary64 → Option Extended
  | .nan _ => none
  | .infinite true => some .bottom
  | .infinite false => some .top
  | x => some (.real x.units)

def lt (a b : Binary64) : Bool :=
  match a.extended?, b.extended? with
  | some a, some b => a.lt b
  | _, _ => false

def eq (a b : Binary64) : Bool :=
  match a.extended?, b.extended? with
  | some a, some b => a = b
  | _, _ => false

def neg : Binary64 → Binary64
  | .nan _ => .nan none
  | .infinite n => .infinite !n
  | .finite n m e => .finite (!n) m e

def abs : Binary64 → Binary64
  | .nan _ => .nan none
  | .infinite _ => .infinite false
  | .finite _ m e => .finite false m e

def add : Binary64 → Binary64 → Binary64
  | .nan _, _ | _, .nan _ => .nan none
  | .infinite a, .infinite b => if a = b then .infinite a else .nan none
  | .infinite a, _ => .infinite a
  | _, .infinite b => .infinite b
  | x, y => ofUnits (x.negative && y.negative) (x.units + y.units) 1

def sub (x y : Binary64) : Binary64 := x.add y.neg

def mul (x y : Binary64) : Binary64 :=
  let negative := x.negative != y.negative
  match x, y with
  | .nan _, _ | _, .nan _ => .nan none
  | .infinite _, y => if y.isZero then .nan none else .infinite negative
  | x, .infinite _ => if x.isZero then .nan none else .infinite negative
  | x, y => ofUnits negative (x.units * y.units) unitsPerOne

def div (x y : Binary64) : Binary64 :=
  let negative := x.negative != y.negative
  match x, y with
  | .nan _, _ | _, .nan _ => .nan none
  | .infinite _, .infinite _ => .nan none
  | .infinite _, _ => .infinite negative
  | _, .infinite _ => zero negative
  | x, y => if y.isZero then .nan none else ofRatio negative x.units.natAbs y.units.natAbs

/-- The exact remainder of truncating division: it has the sign of the dividend. -/
def truncRem (x y : Binary64) : Binary64 :=
  match x, y with
  | .nan _, _ | _, .nan _ | .infinite _, _ => .nan none
  | x, .infinite _ => x
  | x, y => if y.isZero then .nan none else ofUnits x.negative (x.units.tmod y.units) 1

/-- The remainder for a divisor other than zero: it has the sign of the divisor, also when it is
zero. -/
def floorRem (x y : Binary64) : Binary64 :=
  let r := x.truncRem y
  if r.isZero then zero y.negative
  else if y.negative != r.negative then r.add y else r

def floor : Binary64 → Binary64
  | .finite n m e =>
    let x := Binary64.finite n m e
    ofUnits n (x.units.fdiv unitsPerOne * unitsPerOne) 1
  | x => x

def floorDiv (x y : Binary64) : Binary64 :=
  let r := x.truncRem y
  let q := (x.sub r).div y
  let q := if !r.isZero && y.negative != r.negative then q.sub (ofInt 1) else q
  if q.isZero then zero (x.negative != y.negative)
  else
    let f := q.floor
    if (ofRatio false 1 2).lt (q.sub f) then f.add (ofInt 1) else f

def truncate (x : Binary64) : Int := x.units.tdiv unitsPerOne

/-- The number a decimal `± digits * 10^exponent` denotes. Far exponents are cut off where every
such decimal is infinite or zero: ten to the `n` has more than `3 * n` bits. -/
def ofDecimal (negative : Bool) (digits : Nat) (exponent : Int) : Binary64 :=
  let bits := (digits.log2 : Int) + 3 * exponent
  if digits = 0 then zero negative
  else if 0 ≤ exponent then
    if 1100 < bits then .infinite negative
    else ofRatio negative (digits * Nat.pow 10 exponent.toNat) 1
  else if bits < -1200 then zero negative
  else ofRatio negative digits (Nat.pow 10 (-exponent).toNat)

end Binary64

end CallTime

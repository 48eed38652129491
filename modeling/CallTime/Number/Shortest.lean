import CallTime.Number.Binary64

/-!
The shortest decimal text of a binary64 number: the fewest digits that read back as the number,
and of two such decimals the nearer one.
-/

namespace CallTime

/-- The decimal number `digits * 10^exponent`. -/
structure Decimal where
  digits : Nat
  exponent : Int
  deriving DecidableEq

namespace Decimal

/-- A positive ratio of whole numbers times `10^-k`. -/
def scaleDown (num den : Nat) (k : Int) : Nat × Nat :=
  if 0 ≤ k then (num, den * Nat.pow 10 k.toNat) else (num * Nat.pow 10 (-k).toNat, den)

/-- The least `p` near `guess` with `num / den < 10^p`. -/
def pointOf (num den : Nat) : Int :=
  let guess : Int := (((num.log2 : Int) - (den.log2 : Int)) * 30103).fdiv 100000 - 1
  let below (p : Int) : Bool := let s := scaleDown num den p; s.1 < s.2
  if below guess then guess
  else if below (guess + 1) then guess + 1
  else if below (guess + 2) then guess + 2
  else guess + 3

/-- The neighbours of `num / den` among the multiples of `10^k`, the nearer one first. -/
def neighbours (num den : Nat) (k : Int) : List Decimal :=
  let s := scaleDown num den k
  let low := s.1 / s.2
  if 2 * (s.1 % s.2) < s.2 then [⟨low, k⟩, ⟨low + 1, k⟩] else [⟨low + 1, k⟩, ⟨low, k⟩]

/-- The shortest decimal that reads back as the positive number `x = num / den`. -/
def shortest (x : Binary64) (num den : Nat) : Decimal :=
  let p := pointOf num den
  let grids := (List.range 17).flatMap fun (n : Nat) => neighbours num den (p - (n + 1))
  (grids.find? fun d => Binary64.ofDecimal false d.digits d.exponent == x).getD ⟨0, 0⟩

/-- The digits without trailing zeros, and the place of the decimal point before them. -/
def mantissa (d : Decimal) : List Char × Int :=
  let all := Nat.toDigits 10 d.digits
  let point := (all.length : Int) + d.exponent
  ((all.reverse.dropWhile (· == '0')).reverse, point)

end Decimal

/-- How a number is written once its digits are known: positionally when the point lies after
`least` and not after `most` places, with an exponent of two digits or more otherwise.
`wholePoint` writes `.0` behind a whole number. -/
structure NumberFormat where
  least : Int
  most : Int
  wholePoint : Bool

namespace NumberFormat

def literal : NumberFormat := ⟨-4, 16, true⟩

def bare : NumberFormat := ⟨-4, 16, false⟩

def exponentText (e : Int) : String :=
  let n := toString e.natAbs
  (if e < 0 then "e-" else "e+") ++ (if n.length < 2 then "0" ++ n else n)

def layout (f : NumberFormat) (digits : List Char) (point : Int) : String :=
  if f.least < point ∧ point ≤ f.most then
    if point ≤ 0 then
      "0." ++ String.ofList (List.replicate (-point).toNat '0' ++ digits)
    else if digits.length ≤ point.toNat then
      String.ofList (digits ++ List.replicate (point.toNat - digits.length) '0')
        ++ (if f.wholePoint then ".0" else "")
    else
      String.ofList (digits.take point.toNat) ++ "." ++ String.ofList (digits.drop point.toNat)
  else
    match digits with
    | [] => ""
    | d :: [] => String.singleton d ++ exponentText (point - 1)
    | d :: rest => String.singleton d ++ "." ++ String.ofList rest ++ exponentText (point - 1)

def text (f : NumberFormat) : Binary64 → String
  | .nan _ => "nan"
  | .infinite negative => if negative then "-inf" else "inf"
  | .finite negative m e =>
    let sign := if negative then "-" else ""
    if m = 0 then sign ++ f.layout ['0'] 1
    else
      let s := scaleRatio m 1 (-e)
      let (digits, point) := (Decimal.shortest (.finite false m e) s.1 s.2).mantissa
      sign ++ f.layout digits point

end NumberFormat

end CallTime

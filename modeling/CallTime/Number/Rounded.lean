import CallTime.Number.Shortest

/-!
Decimal texts of a binary64 number with a given number of digits. The exact value is rounded, a half to
the even neighbour. The sign is left to the caller.
-/

namespace CallTime

namespace Decimal

/-- A whole number with a decimal point before its last `places` digits. -/
def pointed (alternate : Bool) (places n : Nat) : List Char :=
  let ds := Nat.toDigits 10 n
  let ds := List.replicate (places + 1 - ds.length) '0' ++ ds
  let whole := ds.take (ds.length - places)
  if places = 0 && !alternate then whole else whole ++ '.' :: ds.drop (ds.length - places)

/-- The first `count` digits of a ratio, rounded, and the place of the decimal point before them. -/
def leading (num den count : Nat) : List Char × Int :=
  if num = 0 then (List.replicate count '0', 1)
  else
    let point := pointOf num den
    let s := scaleDown num den (point - count)
    let n := roundDiv s.1 s.2
    if n = Nat.pow 10 count then ('1' :: List.replicate (count - 1) '0', point + 1)
    else (Nat.toDigits 10 n, point)

def exponential (alternate : Bool) (ds : List Char) (point : Int) : List Char :=
  let places := ds.drop 1
  let places := if places.isEmpty && !alternate then [] else '.' :: places
  ds.take 1 ++ places ++ (NumberFormat.exponentText (point - 1)).toList

def positional (alternate : Bool) (ds : List Char) (point : Int) : List Char :=
  if point ≤ 0 then '0' :: '.' :: List.replicate (-point).toNat '0' ++ ds
  else
    let whole := ds.take point.toNat
    let whole := whole ++ List.replicate (point.toNat - whole.length) '0'
    let places := ds.drop point.toNat
    if places.isEmpty && !alternate then whole else whole ++ '.' :: places

end Decimal

/-- The three ways to write a number: with a fixed number of places, with an exponent, or the shorter
one of the two without the zeros at its end. -/
inductive DecimalStyle where
  | fixed | exponential | general
  deriving DecidableEq

namespace DecimalStyle

/-- The absolute value of a finite number; `alternate` keeps the point and the zeros at the end. -/
def ofRatio (way : DecimalStyle) (alternate : Bool) (precision num den : Nat) : List Char :=
  match way with
  | .fixed =>
    Decimal.pointed alternate precision (roundDiv (num * Nat.pow 10 precision) den)
  | .exponential =>
    let (ds, point) := Decimal.leading num den (precision + 1)
    Decimal.exponential alternate ds point
  | .general =>
    let count := max 1 precision
    let (ds, point) := Decimal.leading num den count
    let kept := (ds.reverse.dropWhile (· == '0')).reverse
    let ds := if alternate then ds else if kept.isEmpty then ['0'] else kept
    if -4 < point ∧ point ≤ count then Decimal.positional alternate ds point
    else Decimal.exponential alternate ds point

def text (way : DecimalStyle) (alternate : Bool) (precision : Nat) : Binary64 → List Char
  | .nan _ => ['n', 'a', 'n']
  | .infinite _ => ['i', 'n', 'f']
  | .finite _ m e =>
    let s := scaleRatio m 1 (-e)
    way.ofRatio alternate precision s.1 s.2

end DecimalStyle

end CallTime

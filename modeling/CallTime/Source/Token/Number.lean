import CallTime.Text.Digit
import CallTime.Value.Convert

/-!
Numbers in sources: whole numbers in four bases, floating-point and imaginary numbers.
-/

namespace CallTime.Source.Number

def baseDigit? (base : Nat) (c : Char) : Option Nat := (hexDigit? c).filter (· < base)

inductive RunState where
  | start | digit | underscore
  deriving DecidableEq

/-- A run of digits with single underscores between them; an underscore that no digit follows fails. -/
def runFrom (base : Nat) : RunState → List Char → Option (List Nat × List Char)
  | state, [] => if state = .underscore then none else some ([], [])
  | state, c :: rest => match baseDigit? base c with
    | some d => do
      let (ds, rest) ← runFrom base .digit rest
      return (d :: ds, rest)
    | none =>
      if c = '_' && state = .digit then runFrom base .underscore rest
      else if state = .underscore then none
      else some ([], c :: rest)

def digitRun (base : Nat) (cs : List Char) : Option (List Nat × List Char) := runFrom base .start cs

def numberOf (base : Nat) (ds : List Nat) : Nat := ds.foldl (fun n d => base * n + d) 0

def wordsAfter : List (List Char) :=
  ["and", "else", "for", "if", "in", "is", "or", "not"].map String.toList

def ends (rest : List Char) : Bool :=
  match rest with
  | [] => true
  | c :: _ => wordsAfter.any (·.isPrefixOf rest) || !(c.isAlphanum || c = '_' || 128 ≤ c.toNat)

def finish (v : Value) (rest : List Char) : Option (Value × List Char) :=
  if ends rest then some (v, rest) else none

def based (base : Nat) (cs : List Char) : Option (Value × List Char) := do
  let cs := match cs with
    | '_' :: rest => rest
    | cs => cs
  let (ds, rest) ← digitRun base cs
  if ds.isEmpty then none
  else if rest.head?.any isDigit then none
  else finish (.int (numberOf base ds)) rest

/-- An exponent, if there is one: a letter that no digits follow belongs to what comes next. -/
def exponent (cs : List Char) : Option (Option Int × List Char) :=
  match cs with
  | c :: rest =>
    if c = 'e' || c = 'E' then
      match rest with
      | '+' :: rest => do
        let (ds, rest) ← digitRun 10 rest
        if ds.isEmpty then none else return (some (numberOf 10 ds), rest)
      | '-' :: rest => do
        let (ds, rest) ← digitRun 10 rest
        if ds.isEmpty then none else return (some (-(numberOf 10 ds : Int)), rest)
      | rest => do
        let (ds, rest') ← digitRun 10 rest
        if ds.isEmpty then return (none, c :: rest)
        else return (some (numberOf 10 ds), rest')
    else some (none, cs)
  | [] => some (none, cs)

/-- The value of a decimal number in parts; `whole` and `places` are its digits. -/
def decimal (whole places : List Nat) (pointed : Bool) (cs : List Char) :
    Option (Value × List Char) := do
  let (e, rest) ← exponent cs
  let x := Binary64.ofDecimal false (numberOf 10 (whole ++ places)) (e.getD 0 - places.length)
  match rest with
  | c :: rest' =>
    if c = 'j' || c = 'J' then finish (.complex (.zero false) x) rest'
    else if pointed || e.isSome then finish (.float x) rest
    else integer whole rest
  | [] => if pointed || e.isSome then some (.float x, []) else integer whole rest
where
  /-- A number other than zero has no leading zeros and not too many digits. -/
  integer (whole : List Nat) (rest : List Char) : Option (Value × List Char) :=
    if whole.head? = some 0 then
      if whole.any (· ≠ 0) then none else finish (.int 0) rest
    else if maxDigits < whole.length then none
    else finish (.int (numberOf 10 whole)) rest

/-- A number that starts with a digit, or with a point that a digit follows. -/
def scan (cs : List Char) : Option (Value × List Char) :=
  match cs with
  | '0' :: c :: rest =>
    if c = 'x' || c = 'X' then based 16 rest
    else if c = 'o' || c = 'O' then based 8 rest
    else if c = 'b' || c = 'B' then based 2 rest
    else plain cs
  | _ => plain cs
where
  plain (cs : List Char) : Option (Value × List Char) := do
    let (whole, rest) ← digitRun 10 cs
    match rest with
    | '.' :: rest => do
      let (places, rest) ← digitRun 10 rest
      decimal whole places true rest
    | _ => decimal whole [] false rest

end CallTime.Source.Number

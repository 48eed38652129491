import CallTime.Number.Rounded
import CallTime.Value.Convert
import CallTime.Value.Print

/-!
Filling values into a template, a text or a byte string.

A directive starts with a percent sign, may name a key of a table in parentheses, and goes on with
flags, a least width, a precision and the letter of a conversion. `%%` stands for a percent sign.
-/

namespace CallTime

structure Directive where
  leftAligned : Bool
  signed : Bool
  spaced : Bool
  alternate : Bool
  zeroFilled : Bool
  width : Option Nat
  precision : Option Nat
  conversion : Nat

/-- What a filled template can be itself: the template, the argument, an item of it, the word for a
truth value, or a digit that was printed on its own. -/
inductive Kept where
  | template
  | argument
  | item (index : Nat)
  | word (b : Bool)
  | digit
  deriving DecidableEq

namespace Template

structure Cursor where
  rest : List Nat
  /-- The values still to be inserted, and what they are. -/
  supply : List (Value × Kept)

abbrev Reader := StateT Cursor (Except Fault)

/-- A template that ends inside a directive is incomplete. -/
def next : Reader Nat := do
  match (← get).rest with
  | [] => throw .wrongValue
  | n :: rest => do
    modify fun c => { c with rest }
    return n

def accept (char : Char) : Reader Bool := do
  match (← get).rest with
  | n :: rest =>
    if n = char.toNat then do
      modify fun c => { c with rest }
      return true
    else return false
  | [] => return false

def value : Reader (Value × Kept) := do
  match (← get).supply with
  | [] => throw .wrongKind
  | v :: supply => do
    modify fun c => { c with supply }
    return v

def key : (depth : Nat) → List Nat → Option (List Nat × List Nat)
  | _, [] => none
  | depth, n :: rest =>
    if n = ')'.toNat then
      match depth with
      | 0 => some ([], rest)
      | depth + 1 => (key depth rest).map fun (k, rest) => (n :: k, rest)
    else (key (if n = '('.toNat then depth + 1 else depth) rest).map fun (k, rest) => (n :: k, rest)

/-- The entry of a table under a key, and its place. Only texts are keys. -/
def entry (wide : Bool) (k : List Nat) : Value → Except Fault (Value × Kept)
  | .table entries =>
    match if wide then entries.findIdx? (·.1.codes = k) else none with
    | some i => .ok (((entries.map Prod.snd)[i]?).getD .null, .item i)
    | none => .error .missingKey
  | _ => .error .wrongKind

def selection (wide : Bool) (mapping : Option Value) : Reader Unit := do
  if ← accept '(' then
    let some m := mapping | throw .wrongKind
    let some (k, rest) := key 0 (← get).rest | throw .wrongValue
    let e ← entry wide k m
    set (Cursor.mk rest [e])

def maxPrecision : Nat := 2147483647

def index : Value → Except Fault Int
  | .bool b => .ok (if b then 1 else 0)
  | .int n => .ok n
  | _ => .error .wrongKind

def amount (limit : Nat) : Reader (Option Int) := do
  if ← accept '*' then
    let n ← index (← value).1
    if n < -(limit : Int) - 1 || (limit : Int) < n then throw .tooLarge else return some n
  else
    let isDigit (n : Nat) : Bool := '0'.toNat ≤ n && n ≤ '9'.toNat
    let ds := (← get).rest.takeWhile isDigit
    modify fun c => { c with rest := c.rest.dropWhile isDigit }
    let n := ds.foldl (fun n d => 10 * n + (d - '0'.toNat)) 0
    if ds.isEmpty then return none else if limit < n then throw .wrongValue else return some n

def precision : Reader (Option Nat) := do
  if ← accept '.' then return some ((← amount maxPrecision).getD 0).toNat else return none

/-- One of the letters that once told the size of a number. -/
def sizeLetter : Reader Bool := do
  if ← accept 'h' then return true
  else if ← accept 'l' then return true
  else accept 'L'

def directive (wide : Bool) (mapping : Option Value) : Reader Directive := do
  selection wide mapping
  let isFlag (n : Nat) : Bool := (codesOf ['-', '+', ' ', '#', '0']).contains n
  let flags := (← get).rest.takeWhile isFlag
  modify fun c => { c with rest := c.rest.dropWhile isFlag }
  let width ← amount (Nat.pow 2 63 - 1)
  let precision ← precision
  let _ ← sizeLetter
  let conversion ← next
  let has (c : Char) : Bool := flags.contains c.toNat
  return {
    leftAligned := has '-' || width.any (· < 0)
    signed := has '+'
    spaced := has ' '
    alternate := has '#'
    zeroFilled := has '0'
    width := width.map Int.natAbs
    precision
    conversion }

def aligned (d : Directive) (body : List Nat) : List Nat :=
  let space := List.replicate (d.width.getD 0 - body.length) ' '.toNat
  if d.leftAligned then body ++ space else space ++ body

/-- A number by its sign, the mark of its base and its digits. Zeros stand after the mark. -/
def numeral (d : Directive) (negative : Bool) (mark digits : List Char) : List Nat :=
  let sign := if negative then ['-'] else if d.signed then ['+'] else if d.spaced then [' '] else []
  let zeros :=
    if d.zeroFilled && !d.leftAligned then
      d.width.getD 0 - (sign.length + mark.length + digits.length)
    else 0
  aligned d (codesOf (sign ++ mark ++ List.replicate zeros '0' ++ digits))

/-- A whole number in a base. The precision is the least number of digits. -/
def integer (d : Directive) (base : Nat) (mark : List Char) (n : Int) : Except Fault (List Nat) :=
  if base = 10 && isLong n then .error .wrongValue
  else
    let ds := Nat.toDigits base n.natAbs
    let ds := List.replicate (d.precision.getD 0 - ds.length) '0' ++ ds
    .ok (numeral d (n < 0) (if d.alternate then mark else []) ds)

def whole (v : Value) : Except Fault Int :=
  match Number.ofValue? v with
  | some (.complex _ _) | none => .error .wrongKind
  | some _ => v.toInt

def binary (v : Value) : Except Fault Binary64 :=
  match Number.ofValue? v with
  | some (.int n) => match Binary64.ofInt n with
    | .infinite _ => .error .tooLarge
    | x => .ok x
  | some (.float x) => .ok x
  | _ => .error .wrongKind

def decimal (d : Directive) (style : DecimalStyle) (upper : Bool) (v : Value) :
    Except Fault (List Nat) := do
  let x ← binary v
  let cs := style.text d.alternate (d.precision.getD 6) x
  return numeral d x.negative [] (if upper then cs.map Char.toUpper else cs)

def word (d : Directive) (body : List Nat) : List Nat :=
  aligned d (match d.precision with
    | some n => body.take n
    | none => body)

def single (wide : Bool) (v : Value) : Except Fault (List Nat) :=
  match wide, v with
  | true, .str s => if s.length = 1 then .ok s.codes else .error .wrongKind
  | false, .bytes b => if b.length = 1 then .ok (b.map UInt8.toNat) else .error .wrongKind
  | _, _ => do
    let n ← index v
    if n < 0 || (if wide then 0x110000 else 256) ≤ n then throw .tooLarge else return [n.toNat]

def literalWord (d : Directive) (ascii : Bool) (v : Value) : Except Fault (List Nat) := do
  let s ← v.literal
  return word d (codesOf (if ascii then Quoted.ascii s else s).toList)

def insertion (wide : Bool) (d : Directive) (v : Value) : Except Fault (List Nat) :=
  let c := Char.ofNat d.conversion
  if c = 's' || (c = 'b' && !wide) then
    if wide then do return word d (← v.display).codes
    else match v with
      | .bytes b => .ok (word d (b.map UInt8.toNat))
      | _ => .error .wrongKind
  else if c = 'r' then literalWord d (!wide) v
  else if c = 'a' then literalWord d true v
  else if c = 'd' || c = 'i' || c = 'u' then do integer d 10 [] (← whole v)
  else if c = 'o' then do integer d 8 ['0', 'o'] (← index v)
  else if c = 'x' then do integer d 16 ['0', 'x'] (← index v)
  else if c = 'X' then do
    return (← integer d 16 ['0', 'x'] (← index v)).map fun n => (Char.ofNat n).toUpper.toNat
  else if c = 'e' || c = 'E' then decimal d .exponential (c = 'E') v
  else if c = 'f' || c = 'F' then decimal d .fixed (c = 'F') v
  else if c = 'g' || c = 'G' then decimal d .general (c = 'G') v
  else if c = 'c' then do return aligned d (← single wide v)
  else .error .wrongValue

/-- A whole number without a width and a precision is written straight into the text, any other one
is printed first. -/
def printsDigit (d : Directive) (v : Value) : Bool :=
  let c := Char.ofNat d.conversion
  let isDecimal := c = 'd' || c = 'i' || c = 'u'
  let isSingle (n : Int) : Bool := 0 ≤ n && n ≤ 9
  match v with
  | .int n =>
    (isDecimal || c = 's' || c = 'r' || c = 'a') && (d.width.isSome || d.precision.isSome) && isSingle n
  | .bool _ | .float _ => isDecimal && (whole v).toOption.any isSingle
  | _ => false

/-- What is written is the value itself: a text that is neither cut nor padded, or the word for a truth
value. -/
def kept? (d : Directive) (v : Value) (source : Kept) : Option Kept :=
  let c := Char.ofNat d.conversion
  let unchanged (length : Nat) : Bool :=
    d.width.all (· ≤ length) && d.precision.all (length ≤ ·) && !d.signed && !d.spaced
  if printsDigit d v && unchanged 1 then some .digit
  else match v with
    | .str s => if c = 's' && unchanged s.length then some source else none
    | .bool b =>
      if (c = 's' || c = 'r' || c = 'a') && unchanged (if b then 4 else 5) then some (.word b)
      else none
    | _ => none

/-- Fills the rest of a template behind what is written already. At the end no value may be left over,
unless there is a mapping. The result says what it is itself, if nothing was added to that. -/
def fill (wide : Bool) (mapping : Option Value) (written : List Nat) (supply : List (Value × Kept)) :
    List Nat → Except Fault (List Nat × Option Kept)
  | [] =>
    if supply.isEmpty || mapping.isSome then .ok (written, none) else .error .wrongKind
  | n :: rest =>
    if n ≠ '%'.toNat then fill wide mapping (written ++ [n]) supply rest
    else if rest.head? = some '%'.toNat then
      fill wide mapping (written ++ ['%'.toNat]) supply (rest.drop 1)
    else do
      let (d, c) ← (directive wide mapping).run ⟨rest, supply⟩
      let (v, source) ← match c.supply with
        | [] => .error .wrongKind
        | first :: _ => pure first
      let after := rest.drop (rest.length - c.rest.length)
      let (out, later) ← fill wide mapping (written ++ (← insertion wide d v)) (c.supply.drop 1) after
      return (out, if written.isEmpty && after.isEmpty then kept? d v source else later)
termination_by template => template.length
decreasing_by all_goals simp only [List.length_cons, List.length_drop]; omega

def supplyOf : Value → List (Value × Kept)
  | .tuple items => items.mapIdx fun i v => (v, .item i)
  | v => [(v, .argument)]

def mappingOf? (wide : Bool) : Value → Option Value
  | .list items => some (.list items)
  | .table entries => some (.table entries)
  | .bytes b => if wide then some (.bytes b) else none
  | _ => none

def apply (wide : Bool) (template : List Nat) (argument : Value) :
    Except Fault (List Nat × Option Kept) := do
  let (out, kept) ← fill wide (mappingOf? wide argument) [] (supplyOf argument) template
  return (out, if template.contains '%'.toNat then kept else some .template)

end Template

end CallTime

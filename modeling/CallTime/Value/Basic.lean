import CallTime.Number.Binary64
import CallTime.Text.Basic

/-!
The values of analysed programs, of settings and of measured durations: their kinds, and when they are
equal.
-/

namespace CallTime

inductive Refusal where
  | wrongKind
  | wrongValue
  deriving DecidableEq

inductive Value where
  | null
  | ellipsis
  | bool (b : Bool)
  | int (n : Int)
  | float (x : Binary64)
  | complex (re im : Binary64)
  | str (s : Text)
  | bytes (b : List UInt8)
  | list (items : List Value)
  | tuple (items : List Value)
  /-- Entries by text keys in insertion order. -/
  | table (entries : List (Text × Value))
  /-- An object that can be told apart by its mark and has no truth value. -/
  | stubborn (refusal : Refusal) (mark : Nat)
  /-- A date or a time, in its ISO 8601 text. -/
  | moment (text : String)

instance : Inhabited Value := ⟨.null⟩

inductive Kind where
  | null | ellipsis | bool | int | float | complex | str | bytes | list | tuple | table | stubborn
  | moment
  deriving DecidableEq

namespace Value

def kind : Value → Kind
  | .null => .null
  | .ellipsis => .ellipsis
  | .bool _ => .bool
  | .int _ => .int
  | .float _ => .float
  | .complex _ _ => .complex
  | .str _ => .str
  | .bytes _ => .bytes
  | .list _ => .list
  | .tuple _ => .tuple
  | .table _ => .table
  | .stubborn _ _ => .stubborn
  | .moment _ => .moment

def isNull : Value → Bool
  | .null => true
  | _ => false

end Value

/-- A number of any kind; truth values count as zero and one. -/
inductive Number where
  | int (n : Int)
  | float (x : Binary64)
  | complex (re im : Binary64)

namespace Number

def ofValue? : Value → Option Number
  | .bool b => some (.int (if b then 1 else 0))
  | .int n => some (.int n)
  | .float x => some (.float x)
  | .complex re im => some (.complex re im)
  | _ => none

/-- The place of a real number in the order; a NaN and a complex number have none. -/
def extended? : Number → Option Binary64.Extended
  | .int n => some (.ofInt n)
  | .float x => x.extended?
  | .complex _ _ => none

def equal : Number → Number → Bool
  | .complex a b, .complex c d => a.eq c && b.eq d
  | .complex a b, y | y, .complex a b =>
    b.isZero && match a.extended?, y.extended? with
      | some x, some y => x = y
      | _, _ => false
  | x, y => match x.extended?, y.extended? with
    | some x, some y => x = y
    | _, _ => false

end Number

def Binary64.found : Binary64 → Binary64 → Bool
  | .nan a, .nan b => a.isSome && a == b
  | x, y => x == y

namespace Value

def found : Value → Value → Bool
  | .float a, .float b => a.found b
  | .complex a b, .complex c d => a.found c && b.found d
  | _, _ => false

mutual

/-- Equality of values. Values of unrelated kinds differ, and containers compare their items with
`same`. -/
def equal : Value → Value → Bool
  | .null, .null => true
  | .ellipsis, .ellipsis => true
  | .str a, .str b => a == b
  | .bytes a, .bytes b => a == b
  | .list a, .list b => equalItems a b
  | .tuple a, .tuple b => equalItems a b
  | .table a, .table b => a.length == b.length && equalEntries a b
  | .stubborn _ a, .stubborn _ b => a == b
  | .moment a, .moment b => a == b
  | a, b => match Number.ofValue? a, Number.ofValue? b with
    | some x, some y => x.equal y
    | _, _ => false
termination_by structural v => v

def equalItems : List Value → List Value → Bool
  | [], [] => true
  | a :: as, b :: bs => (a.found b || a.equal b) && equalItems as bs
  | _, _ => false
termination_by structural vs => vs

def equalEntries : List (Text × Value) → List (Text × Value) → Bool
  | [], _ => true
  | e :: es, bs => equalEntry e bs && equalEntries es bs
termination_by structural es => es

def equalEntry : Text × Value → List (Text × Value) → Bool
  | (k, v), bs => match bs.find? (·.1 == k) with
    | some b => v.found b.2 || v.equal b.2
    | none => false
termination_by structural e => e

end

def same (a b : Value) : Bool := a.found b || a.equal b

end Value

end CallTime

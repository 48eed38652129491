import CallTime.Fault
import CallTime.OrderedMap
import CallTime.Text.Quoted
import CallTime.Value.Convert

/-!
JSON texts. The reader also takes `NaN` and the infinities, and of a repeated key the last value. The
writer puts every field and item on a line of its own.
-/

namespace CallTime.JsonText

def isSpace (c : Char) : Bool := c = ' ' || c = '\t' || c = '\n' || c = '\r'

def skip (cs : List Char) : List Char := cs.dropWhile isSpace

def escapes : List (Char × Nat) :=
  [('"', 34), ('\\', 92), ('/', 47), ('b', 8), ('f', 12), ('n', 10), ('r', 13), ('t', 9)]

def units : List Char → Option (List Nat × List Char)
  | [] => none
  | '"' :: rest => some ([], rest)
  | '\\' :: 'u' :: a :: b :: c :: d :: rest => do
    let n ← hexNumber? [a, b, c, d]
    let (ns, rest) ← units rest
    return (n :: ns, rest)
  | '\\' :: c :: rest => do
    let n ← escapes.lookup c
    let (ns, rest) ← units rest
    return (n :: ns, rest)
  | c :: rest =>
    if c.toNat < 32 || c = '\\' then none
    else do
      let (ns, rest) ← units rest
      return (c.toNat :: ns, rest)

def isHigh (n : Nat) : Bool := 0xD800 ≤ n && n < 0xDC00

def isLow (n : Nat) : Bool := 0xDC00 ≤ n && n < 0xE000

def joinPairs : List Nat → List Nat
  | n :: m :: rest =>
    if isHigh n && isLow m then
      (0x10000 + (n - 0xD800) * 0x400 + (m - 0xDC00)) :: joinPairs rest
    else n :: joinPairs (m :: rest)
  | ns => ns

def string? (cs : List Char) : Option (Text × List Char) := do
  let (ns, rest) ← units cs
  return (⟨joinPairs ns⟩, rest)

def fraction (cs : List Char) : List Char × List Char :=
  match cs with
  | '.' :: rest =>
    let ds := rest.takeWhile isDigit
    if ds.isEmpty then ([], cs) else (ds, rest.dropWhile isDigit)
  | _ => ([], cs)

def exponent? (cs : List Char) : Option (Int × List Char) :=
  match cs with
  | c :: rest =>
    if c = 'e' || c = 'E' then
      let (sign, rest) : Int × List Char := match rest with
        | '-' :: rest => (-1, rest)
        | '+' :: rest => (1, rest)
        | _ => (1, rest)
      let ds := rest.takeWhile isDigit
      if ds.isEmpty then none else some (sign * decimal ds, rest.dropWhile isDigit)
    else none
  | [] => none

def number (negative : Bool) (cs : List Char) : Except Fault (Value × List Char) :=
  let whole := match cs with
    | '0' :: _ => ['0']
    | _ => cs.takeWhile isDigit
  if whole.isEmpty then .error .malformed
  else
    let (places, rest) := fraction (cs.drop whole.length)
    match exponent? rest with
    | some (e, rest) =>
      .ok (.float (.ofDecimal negative (decimal (whole ++ places)) (e - places.length)), rest)
    | none =>
      if !places.isEmpty then
        .ok (.float (.ofDecimal negative (decimal (whole ++ places)) (-(places.length : Int))), rest)
      else if maxDigits < whole.length then .error .wrongValue
      else .ok (.int (if negative then -(decimal whole : Int) else decimal whole), rest)

def words : List (List Char × Value) := [
  ("null".toList, .null), ("true".toList, .bool true), ("false".toList, .bool false),
  ("NaN".toList, .float (.nan none)), ("Infinity".toList, .float (.infinite false)),
  ("-Infinity".toList, .float (.infinite true))]

def scalar (cs : List Char) : Except Fault (Value × List Char) :=
  match words.find? (·.1.isPrefixOf cs) with
  | some (word, v) => .ok (v, cs.drop word.length)
  | none => match cs with
    | '-' :: rest => number true rest
    | _ => number false cs

mutual

def value : (fuel : Nat) → List Char → Except Fault (Value × List Char)
  | 0, _ => .error .malformed
  | fuel + 1, cs => match cs with
    | '"' :: rest => match string? rest with
      | some (s, rest) => .ok (.str s, rest)
      | none => .error .malformed
    | '[' :: rest => match skip rest with
      | ']' :: rest => .ok (.list [], rest)
      | rest => do
        let (vs, rest) ← items fuel rest
        return (.list vs, rest)
    | '{' :: rest => match skip rest with
      | '}' :: rest => .ok (.table [], rest)
      | rest => do
        let (es, rest) ← members fuel rest
        return (.table (OrderedMap.ofList es).entries, rest)
    | cs => scalar cs

def items : (fuel : Nat) → List Char → Except Fault (List Value × List Char)
  | 0, _ => .error .malformed
  | fuel + 1, cs => do
    let (v, rest) ← value fuel cs
    match skip rest with
    | ']' :: rest => return ([v], rest)
    | ',' :: rest =>
      let (vs, rest) ← items fuel (skip rest)
      return (v :: vs, rest)
    | _ => throw .malformed

def members : (fuel : Nat) → List Char → Except Fault (List (Text × Value) × List Char)
  | 0, _ => .error .malformed
  | fuel + 1, cs => do
    let '"' :: rest := cs | throw .malformed
    let some (key, rest) := string? rest | throw .malformed
    let ':' :: rest := skip rest | throw .malformed
    let (v, rest) ← value fuel (skip rest)
    match skip rest with
    | '}' :: rest => return ([(key, v)], rest)
    | ',' :: rest =>
      let (es, rest) ← members fuel (skip rest)
      return ((key, v) :: es, rest)
    | _ => throw .malformed

end

/-- Reads a whole text. It is `malformed`, or a whole number in it has too many digits. -/
def read (text : String) : Except Fault Value := do
  let cs := skip text.toList
  let (v, rest) ← value (2 * cs.length + 1) cs
  if (skip rest).isEmpty then return v else throw .malformed

def escapeChar (c : Char) : List Char :=
  match escapes.find? fun e => e.2 = c.toNat && e.1 ≠ '/' with
  | some (e, _) => ['\\', e]
  | none => if c.toNat < 32 then '\\' :: 'u' :: hexDigits 4 c.toNat else [c]

def quote (t : Text) : String :=
  String.ofList ('"' :: t.shown.toList.flatMap escapeChar ++ ['"'])

def newline (depth : Nat) : String := String.ofList ('\n' :: List.replicate (2 * depth) ' ')

def layout (opening closing : String) (depth : Nat) (parts : List String) : String :=
  if parts.isEmpty then opening ++ closing
  else opening ++ newline (depth + 1) ++ ("," ++ newline (depth + 1)).intercalate parts
    ++ newline depth ++ closing

mutual

def write (depth : Nat) : Value → String
  | .bool true => "true"
  | .bool false => "false"
  | .int n => toString n
  | .str s => quote s
  | .list vs => layout "[" "]" depth (writeItems (depth + 1) vs)
  | .table es => layout "\x7b" "\x7d" depth (writeMembers (depth + 1) es)
  | _ => "null"
termination_by structural v => v

def writeItems (depth : Nat) : List Value → List String
  | [] => []
  | v :: vs => write depth v :: writeItems depth vs
termination_by structural vs => vs

def writeMembers (depth : Nat) : List (Text × Value) → List String
  | [] => []
  | e :: es => writeMember depth e :: writeMembers depth es
termination_by structural es => es

def writeMember (depth : Nat) : Text × Value → String
  | (k, v) => quote k ++ ": " ++ write depth v
termination_by structural e => e

end

def text (v : Value) : String := write 0 v

end CallTime.JsonText

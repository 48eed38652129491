import CallTime.Fault
import CallTime.Format.Toml.Document
import CallTime.Format.Toml.Moment
import CallTime.Value.Convert

/-!
Reading TOML texts whose lines end in line feeds.
-/

namespace CallTime.TomlText

abbrev Reader := StateT (List Char) (Except Fault)

namespace Reader

def fail {α : Type} : Reader α := throw .malformed

def take {α : Type} (f : List Char → Option (α × List Char)) : Reader α := do
  let some (a, rest) := f (← get) | fail
  set rest
  return a

def ofOption {α : Type} : Option α → Reader α
  | some a => return a
  | none => fail

def accept (text : String) : Reader Bool := do
  let cs ← get
  if text.toList.isPrefixOf cs then
    set (cs.drop text.length)
    return true
  else return false

def expect (text : String) : Reader Unit := do
  unless ← accept text do fail

end Reader

open Reader

def isSpace (c : Char) : Bool := c = ' ' || c = '\t'

def skipSpace : Reader Unit := modify (·.dropWhile isSpace)

def isControl (c : Char) : Bool := (c.toNat < 32 && c ≠ '\t') || c.toNat = 127

def comment : Reader Unit := do
  if ← accept "#" then
    let cs ← get
    if (cs.takeWhile (· ≠ '\n')).any isControl then fail
    set (cs.dropWhile (· ≠ '\n'))

def dropGap : (inComment : Bool) → List Char → Option (List Char)
  | _, [] => some []
  | true, c :: rest =>
    if c = '\n' then dropGap false rest
    else if isControl c then none
    else dropGap true rest
  | false, c :: rest =>
    if isSpace c || c = '\n' then dropGap false rest
    else if c = '#' then dropGap true rest
    else some (c :: rest)

def skipGap : Reader Unit := do set (← ofOption (dropGap false (← get)))

def escapes : List (Char × Nat) :=
  [('b', 8), ('t', 9), ('n', 10), ('f', 12), ('r', 13), ('"', 34), ('\\', 92)]

/-- A character by its number in `width` hexadecimal digits. -/
def codeEscape? (width : Nat) (cs : List Char) : Option (List Char × Nat) := do
  let n ← hexNumber? (cs.take width)
  if width ≤ cs.length ∧ n.isValidChar then some ([Char.ofNat n], width + 1) else none

/-- What an escape stands for and how many characters after the backslash it takes. In a text of
several lines a backslash at the end of a line joins it with the next one that is not blank. -/
def escape? (multiline : Bool) (cs : List Char) : Option (List Char × Nat) :=
  match cs with
  | [] => none
  | c :: rest =>
    if multiline && (isSpace c || c = '\n') then
      match cs.dropWhile isSpace with
      | '\n' :: next =>
        some ([], (cs.takeWhile isSpace).length + 1
          + (next.takeWhile fun c => isSpace c || c = '\n').length)
      | _ => none
    else if c = 'u' then codeEscape? 4 rest
    else if c = 'U' then codeEscape? 8 rest
    else (escapes.lookup c).map fun n => ([Char.ofNat n], 1)

/-- A text up to its closing double quotes. The first `skip` characters belong to an escape that is
already read. -/
def basicText? (multiline : Bool) : (skip : Nat) → List Char → Option (List Char × List Char)
  | _, [] => none
  | skip + 1, _ :: rest => basicText? multiline skip rest
  | 0, c :: rest =>
    if c = '"' && !multiline then some ([], rest)
    else if c = '"' && ['"', '"'].isPrefixOf rest then some ([], rest.drop 2)
    else if c = '\\' then do
      let (cs, skip) ← escape? multiline rest
      let (text, rest) ← basicText? multiline skip rest
      return (cs ++ text, rest)
    else if isControl c && !(multiline && c = '\n') then none
    else do
      let (text, rest) ← basicText? multiline 0 rest
      return (c :: text, rest)

def literalText? (multiline : Bool) : List Char → Option (List Char × List Char)
  | [] => none
  | c :: rest =>
    if c = '\'' && !multiline then some ([], rest)
    else if c = '\'' && ['\'', '\''].isPrefixOf rest then some ([], rest.drop 2)
    else if isControl c && !(multiline && c = '\n') then none
    else do
      let (text, rest) ← literalText? multiline rest
      return (c :: text, rest)

def extraQuotes (quote : Char) (cs : List Char) : List Char := (cs.take 2).takeWhile (· = quote)

/-- The text after three opening quotes. A line end right after them does not count. -/
def longText (quote : Char) (body : List Char → Option (List Char × List Char)) : Reader Value := do
  discard (accept "\n")
  let text ← take body
  let more := extraQuotes quote (← get)
  modify (·.drop more.length)
  return .str (.ofChars (text ++ more))

def isBareKey (c : Char) : Bool :=
  isDigit c || ('a' ≤ c && c ≤ 'z') || ('A' ≤ c && c ≤ 'Z') || c = '-' || c = '_'

def keyPart : Reader Text := do
  if ← accept "'" then return .ofChars (← take (literalText? false))
  if ← accept "\"" then return .ofChars (← take (basicText? false 0))
  let cs ← get
  let part := cs.takeWhile isBareKey
  if part.isEmpty then fail
  set (cs.dropWhile isBareKey)
  return .ofChars part

def keyParts : (bound : Nat) → Reader Key
  | 0 => fail
  | bound + 1 => do
    skipSpace
    let part ← keyPart
    skipSpace
    if ← accept "." then return part :: (← keyParts bound) else return [part]

def key : Reader Key := do keyParts ((← get).length + 1)

def grouped (digit : Char → Bool) : List Char → List Char × List Char
  | [] => ([], [])
  | c :: rest =>
    if digit c then
      let (ds, rest) := grouped digit rest
      (c :: ds, rest)
    else if c = '_' && rest.head?.any digit then grouped digit rest
    else ([], c :: rest)

def digits? (digit : Char → Bool) (cs : List Char) : Option (List Char × List Char) :=
  if cs.head?.any digit then some (grouped digit cs) else none

def radixes : List (Char × Nat) := [('x', 16), ('b', 2), ('o', 8)]

def radixNumber? (cs : List Char) : Option (Value × List Char) :=
  match cs with
  | '0' :: r :: rest => do
    let base ← radixes.lookup r
    let (ds, rest) ← digits? (fun c => (hexDigit? c).any (· < base)) rest
    let n := (ds.filterMap hexDigit?).foldl (fun n d => base * n + d) 0
    return (.int n, rest)
  | _ => none

def sign (cs : List Char) : Bool × List Char :=
  match cs with
  | '-' :: rest => (true, rest)
  | '+' :: rest => (false, rest)
  | _ => (false, cs)

def exponent? : List Char → Option (Int × List Char)
  | c :: rest => do
    if c ≠ 'e' && c ≠ 'E' then none
    let (negative, rest) := sign rest
    let (ds, rest) ← digits? isDigit rest
    return (if negative then -(decimal ds : Int) else decimal ds, rest)
  | [] => none

/-- The digits before the point: a single zero, or no zero first. -/
def wholePart? (cs : List Char) : Option (List Char × List Char) :=
  match cs with
  | '0' :: rest => some (['0'], rest)
  | _ => digits? isDigit cs

/-- A number in base 10. One with a fraction or an exponent is a floating-point number. -/
def decimalNumber? (cs : List Char) : Option (Except Fault Value × List Char) := do
  let (negative, cs) := sign cs
  let (whole, cs) ← wholePart? cs
  let fraction : Option (List Char × List Char) := do digits? isDigit (← char? '.' cs)
  let (places, cs) := fraction.getD ([], cs)
  match exponent? cs with
  | some (e, cs) =>
    return (.ok (.float (.ofDecimal negative (decimal (whole ++ places)) (e - places.length))), cs)
  | none =>
    if !places.isEmpty then
      let x := Binary64.ofDecimal negative (decimal (whole ++ places)) (-(places.length : Int))
      return (.ok (.float x), cs)
    else if maxDigits < whole.length then return (.error .wrongValue, cs)
    else return (.ok (.int (if negative then -(decimal whole : Int) else decimal whole)), cs)

def words : List (String × Value) := [
  ("true", .bool true), ("false", .bool false), ("inf", .float (.infinite false)),
  ("+inf", .float (.infinite false)), ("-inf", .float (.infinite true)), ("nan", .float (.nan none)),
  ("+nan", .float (.nan none)), ("-nan", .float (.nan none))]

def scalar : Reader Value := do
  let cs ← get
  if let some (word, v) := words.find? (·.1.toList.isPrefixOf cs) then
    set (cs.drop word.length)
    return v
  if let some (valid, text, rest) := moment? cs then
    unless valid do fail
    set rest
    return .moment (String.ofList text)
  if let some (v, rest) := radixNumber? cs then
    set rest
    return v
  if let some (v, rest) := decimalNumber? cs then
    set rest
    return ← v
  fail

def items (value : Reader Value) : (bound : Nat) → Reader (List Value)
  | 0 => fail
  | bound + 1 => do
    skipGap
    if ← accept "]" then return []
    let v ← value
    skipGap
    if ← accept "]" then return [v]
    expect ","
    return v :: (← items value bound)

def pair (value : Reader Value) : Reader (Key × Value) := do
  let k ← key
  expect "="
  skipSpace
  return (k, ← value)

def members (value : Reader Value) : (bound : Nat) → Marks → Table → Reader Table
  | 0, _, _ => fail
  | bound + 1, marks, t => do
    let (k, v) ← pair value
    if marks.isClosed k then fail
    let t ← ofOption (place false k v t)
    skipSpace
    if ← accept "\x7d" then return t
    expect ","
    members value bound (if isContainer v then (k, .closed) :: marks else marks) t

def value : (depth : Nat) → Reader Value
  | 0 => fail
  | depth + 1 => do
    if ← accept "\"\"\"" then longText '"' (basicText? true 0)
    else if ← accept "\"" then return .str (.ofChars (← take (basicText? false 0)))
    else if ← accept "'''" then longText '\'' (literalText? true)
    else if ← accept "'" then return .str (.ofChars (← take (literalText? false)))
    else if ← accept "[" then return .list (← items (value depth) ((← get).length + 1))
    else if ← accept "\x7b" then
      skipSpace
      if ← accept "\x7d" then return .table []
      return .table (← members (value depth) ((← get).length + 1) [] {}).entries
    else scalar

def statement (depth : Nat) (d : Document) : Reader Document := do
  if ← accept "[[" then
    let k ← key
    let d ← ofOption (d.openItem k)
    expect "]]"
    return d
  else if ← accept "[" then
    let k ← key
    let d ← ofOption (d.openTable k)
    expect "]"
    return d
  else
    let (k, v) ← pair (value depth)
    let d ← ofOption (d.assign k v)
    return d

def statements (depth : Nat) : (bound : Nat) → Document → Reader Document
  | 0, _ => fail
  | bound + 1, d => do
    skipSpace
    let d ← match (← get).head? with
      | none | some '\n' | some '#' => pure d
      | some _ => statement depth d
    skipSpace
    comment
    if (← get).isEmpty then return d
    expect "\n"
    statements depth bound d

/-- Reads a whole document. It is `malformed`, or a whole number in it has too many digits. -/
def read (text : String) : Except Fault Table := do
  let cs := text.toList
  let (d, _) ← (statements (cs.length + 1) (cs.length + 1) {}).run cs
  return d.content

end CallTime.TomlText

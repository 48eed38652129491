import CallTime.Source.Grammar.Expr
import CallTime.Source.Stmt

/-!
The grammar of patterns.
-/

namespace CallTime.Source.Grammar

open Source.Parser

/-- A name that a pattern binds: not the wildcard, and not the start of something longer. -/
def captureTarget : Parser String := do
  let id ← name
  if id = "_" || (← seesAny [".", "(", "="]) then failure
  return id

/-- A dotted name with at least `least` dots. -/
def dotted (r : Rules) (least : Nat) : Parser Expr := do
  let line ← Parser.line
  let id ← name
  let rest ← many r.bound do
    expect "."
    name
  if rest.length < least then failure
  return rest.foldl (.attribute line) (.name line id .load)

def isImaginary : Value → Bool
  | .complex _ _ => true
  | _ => false

def number : Parser Value := do
  match ← get with
  | ⟨.number v, _, _⟩ :: rest => do
    set rest
    return v
  | _ => failure

/-- A number with an optional sign; a real one may have an imaginary part. -/
def signedNumber : Parser Expr := do
  let line ← Parser.line
  let negative ← accept "-"
  let here ← Parser.line
  let place ← Parser.place
  let v ← number
  let constant : Expr := .constant here v { place }
  let first : Expr := if negative then .unary line .minus constant else constant
  match ← oneOf [("+", BinaryOperator.add), ("-", .sub)] with
  | none => return first
  | some op => do
    let here ← Parser.line
    let place ← Parser.place
    let w ← number
    if isImaginary v || !isImaginary w then failure
    return .binary line op first (.constant here w { place })

def literalValue (r : Rules) : Parser Expr := do
  match (← get).head?.map Token.kind with
  | some (.string _) => strings r
  | _ => signedNumber

def namedConstants : List (String × Value) :=
  [("None", .null), ("True", .bool true), ("False", .bool false)]

def mappingKey (r : Rules) : Parser Expr := do
  let line ← Parser.line
  let place ← Parser.place
  match ← oneOf namedConstants with
  | some v => return .constant line v { place }
  | none => match ← attempt (dotted r 1) with
    | some e => return e
    | none => literalValue r

def starPattern (pattern : Parser Pattern) : Parser (Pattern × Bool) := do
  if ← accept "*" then
    match ← attempt captureTarget with
    | some id => return (.star (some id), true)
    | none => do
      softKeyword "_"
      return (.star none, true)
  else return (← pattern, false)

def sequenceItems (r : Rules) (pattern : Parser Pattern) (close : String) : Parser Pattern := do
  if ← accept close then return .sequence []
  else
    let (items, trailing) ← commaList r.bound (starPattern pattern)
    expect close
    match items, trailing with
    | [(p, isStar)], false => do
      -- Parentheses around one pattern only group it.
      if close = ")" then
        if isStar then failure
        return p
      else return .sequence [p]
    | items, _ => return .sequence (items.map (·.1))

inductive MappingEntry where
  | entry (key : Expr) (value : Pattern)
  | rest (name : String)

/-- A mapping pattern after its opening brace; the remaining entries come last. -/
def mappingEntries (r : Rules) (pattern : Parser Pattern) : Parser Pattern := do
  if ← accept "\x7d" then return .mapping [] [] none
  else
    let item : Parser MappingEntry := do
      if ← accept "**" then return .rest (← captureTarget)
      else
        let key ← mappingKey r
        expect ":"
        return .entry key (← pattern)
    let (items, _) ← commaList r.bound item
    expect "\x7d"
    let entries := items.filterMap fun
      | .entry k p => some (k, p)
      | .rest _ => none
    let rests := items.filterMap fun
      | .rest id => some id
      | .entry _ _ => none
    match items.getLast?, rests with
    | some (.rest _), [id] => return .mapping (entries.map (·.1)) (entries.map (·.2)) (some id)
    | _, [] => return .mapping (entries.map (·.1)) (entries.map (·.2)) none
    | _, _ => failure

/-- The patterns in the parentheses of a class pattern; named ones come last. -/
def recordEntries (r : Rules) (pattern : Parser Pattern) (class_ : Expr) : Parser Pattern := do
  if ← accept ")" then return .record class_ [] [] []
  else
    let item : Parser (Option String × Pattern) := do
      match ← nameBefore? "=" with
      | some id => do
        skip
        skip
        return (some id, ← pattern)
      | none => return (none, ← pattern)
    let (items, _) ← commaList r.bound item
    expect ")"
    let positional := items.takeWhile (·.1.isNone)
    let named := items.dropWhile (·.1.isNone)
    if named.any (·.1.isNone) then failure
    return .record class_ (positional.map (·.2)) (named.filterMap (·.1)) (named.map (·.2))

def namePattern (r : Rules) (pattern : Parser Pattern) : Parser Pattern := do
  match ← attempt captureTarget with
  | some id => return .capture none (some id)
  | none =>
    if (← name?) = some "_" then
      skip
      return .capture none none
    else
      let e ← dotted r 0
      if ← accept "(" then recordEntries r pattern e
      else if ← sees "=" then failure
      else match e with
        | .name _ _ _ => failure
        | e => return .value e

def closedPattern (r : Rules) (pattern : Parser Pattern) : Parser Pattern := do
  match (← get).head?.map Token.kind with
  | some (.name _) => namePattern r pattern
  | _ => match ← oneOf namedConstants with
    | some v => return .singleton v
    | none =>
      if ← accept "(" then sequenceItems r pattern ")"
      else if ← accept "[" then sequenceItems r pattern "]"
      else if ← accept "\x7b" then mappingEntries r pattern
      else return .value (← literalValue r)

def asPattern (r : Rules) (pattern : Parser Pattern) : Parser Pattern := do
  let first ← closedPattern r pattern
  let rest ← many r.bound do
    expect "|"
    closedPattern r pattern
  let p := if rest.isEmpty then first else .alternatives (first :: rest)
  if ← accept "as" then return .capture (some p) (some (← captureTarget))
  else return p

def patternAt (r : Rules) : (depth : Nat) → Parser Pattern
  | 0 => failure
  | depth + 1 => asPattern r (patternAt r depth)

/-- The pattern of a case; a sequence needs no brackets there. -/
def casePattern (r : Rules) : Parser Pattern := do
  let (items, trailing) ← commaList r.bound (starPattern (patternAt r r.bound))
  match items, trailing with
  | [(p, isStar)], false => do
    if isStar then failure
    return p
  | items, _ => return .sequence (items.map (·.1))

end CallTime.Source.Grammar

import CallTime.Source.Grammar.Parser
import CallTime.Source.Grammar.Target
import CallTime.Source.Literal
import CallTime.Source.Token.Scan

/-!
The grammar of expressions. Each rule is a parser that may call the rules one level further in, so
the nesting of a source bounds the recursion.
-/

namespace CallTime.Source.Grammar

open Source.Parser

structure Rules where
  /-- More than the number of tokens. -/
  bound : Nat
  atom : Parser Expr
  factor : Parser Expr
  inversion : Parser Expr
  bitwiseOr : Parser Expr
  disjunction : Parser Expr
  expression : Parser Expr

/-- A name that is followed by an operator. -/
def nameBefore? (s : String) : Parser (Option String) := do
  match ← name? with
  | some id => return if ← seesNext s then some id else none
  | none => return none

def namedExpression (r : Rules) : Parser Expr := do
  let line ← Parser.line
  match ← nameBefore? ":=" with
  | some id => do
    skip
    skip
    return .named line (.name line id .store) (← r.expression)
  | none => do
    let e ← r.expression
    if ← sees ":=" then failure
    return e

def starNamedExpression (r : Rules) : Parser Expr := do
  let line ← Parser.line
  if ← accept "*" then return .starred line (← r.bitwiseOr)
  else namedExpression r

def starExpression (r : Rules) : Parser Expr := do
  let line ← Parser.line
  if ← accept "*" then return .starred line (← r.bitwiseOr)
  else r.expression

def tupleOr (line : Nat) (items : List Expr) (trailing : Bool) : Expr :=
  match items, trailing with
  | [e], false => e
  | es, _ => .tuple line es

def starExpressions (r : Rules) : Parser Expr := do
  let line ← Parser.line
  let (items, trailing) ← commaList r.bound (starExpression r)
  return tupleOr line items trailing

def yieldExpression (r : Rules) : Parser Expr := do
  let line ← Parser.line
  expect "yield"
  if ← accept "from" then return .yieldFrom line (← r.expression)
  else return .yield line (← attempt (starExpressions r))

def loopTargets (r : Rules) : Parser Expr := do
  let line ← Parser.line
  let item : Parser Expr := do
    let line ← Parser.line
    if ← accept "*" then return .starred line (← r.bitwiseOr)
    else r.bitwiseOr
  let (items, trailing) ← commaList r.bound item
  match (tupleOr line items trailing).asTarget? .store true with
  | some e => return e
  | none => failure

def clause (r : Rules) : Parser (Clause Expr) := do
  let isAsync ← accept "async"
  expect "for"
  let target ← loopTargets r
  expect "in"
  let source ← r.disjunction
  let conditions ← many r.bound do
    expect "if"
    r.disjunction
  return { target, source, conditions, isAsync }

def clauses (r : Rules) : Parser (List (Clause Expr)) := many1 r.bound (clause r)

def seesClause : Parser Bool := do
  if ← sees "for" then return true
  else sees "async"

def isStarred : Expr → Bool
  | .starred _ _ => true
  | _ => false

/-- A part of a formatted string: text, or a replacement field. -/
inductive Piece where
  | text (codes : List Nat)
  | field (e : Expr)

def Piece.merge : List Piece → List Piece
  | [] => []
  | .field e :: rest => .field e :: merge rest
  | .text codes :: rest => match merge rest with
    | .text more :: rest => .text (codes ++ more) :: rest
    | rest => if codes.isEmpty then rest else .text codes :: rest

def Piece.expr (line : Nat) (spelling : Spelling) : Piece → Expr
  | .text codes => .constant line (.str ⟨codes⟩) spelling
  | .field e => e

/-- Text up to a replacement field, the end of a format, or a doubled brace, of which one is kept. The
result says whether it ended at a doubled brace. Doubled braces count only outside of formats, and
the braces around the name of a character do not count. -/
def literalText (isRaw : Bool) (level : Nat) :
    (named : Bool) → List Char → Option (List Char × Bool × List Char)
  | _, [] => some ([], false, [])
  | true, c :: rest => do
    let (cs, doubled, rest) ← literalText isRaw level (c ≠ '}') rest
    return (c :: cs, doubled, rest)
  | false, '\\' :: c :: rest =>
    if isRaw || c = '{' || c = '}' then do
      let (cs, doubled, rest) ← literalText isRaw level false (c :: rest)
      return ('\\' :: cs, doubled, rest)
    else do
      let (cs, doubled, rest) ← literalText isRaw level (c = 'N' && rest.head? = some '{') rest
      return ('\\' :: c :: cs, doubled, rest)
  | false, c :: rest =>
    if c = '{' || c = '}' then
      if level ≠ 0 then some ([], false, c :: rest)
      else if rest.head? = some c then some ([c], true, rest.drop 1)
      else if c = '}' then none
      else some ([], false, c :: rest)
    else do
      let (cs, doubled, rest) ← literalText isRaw level false rest
      return (c :: cs, doubled, rest)

structure FieldState where
  /-- Characters that were looked at already. -/
  skip : Nat := 0
  /-- The quote of the string it is in, and whether it is a triple one. -/
  quote : Option (Char × Bool) := none
  brackets : List Char := []

/-- Whether two more of the same quote follow. -/
def isTriple (q : Char) (rest : List Char) : Bool := rest.take 2 == [q, q]

def fieldText (s : FieldState) : List Char → Option (List Char × List Char)
  | [] => none
  | c :: rest =>
    let go (s : FieldState) : Option (List Char × List Char) := do
      let (cs, rest) ← fieldText s rest
      return (c :: cs, rest)
    if s.skip ≠ 0 then go { s with skip := s.skip - 1 }
    else if c = '\\' then none
    else match s.quote with
      | some (q, triple) =>
        if c ≠ q then go s
        else if !triple then go { s with quote := none }
        else if isTriple q rest then go { s with quote := none, skip := 2 }
        else go s
      | none =>
        if c = '\'' || c = '"' then
          if isTriple c rest then go { s with quote := some (c, true), skip := 2 }
          else go { s with quote := some (c, false) }
        else if c = '(' || c = '[' || c = '{' then go { s with brackets := c :: s.brackets }
        else if c = '#' then none
        else if s.brackets.isEmpty && ['!', ':', '}', '=', '>', '<'].contains c then
          if rest.head? = some '=' && ['!', '=', '<', '>'].contains c then go { s with skip := 1 }
          else if c = '>' || c = '<' then go s
          else some ([], c :: rest)
        else match Scan.closing c with
          | some o => match s.brackets with
            | b :: bs => if b = o then go { s with brackets := bs } else none
            | [] => none
          | none => go s

def isFieldBlank (c : Char) : Bool := c = ' ' || c = '\t' || c = '\n' || c = '\x0c'

def isAsciiSpace (c : Char) : Bool := isFieldBlank c || c = '\r' || c = '\x0b'

def fieldExpression (r : Rules) (line : Nat) (place : Place) (text : List Char) : Option Expr := do
  if text.all isFieldBlank then none
  let tokens ← Token.scan line place ('(' :: text ++ [')'])
  let (e, rest) ← r.atom tokens
  match rest with
  | [⟨.newline, _, _⟩] => return e
  | _ => none

def conversion : List Char → Option (Option Char × List Char)
  | '!' :: c :: rest => if c = 's' || c = 'r' || c = 'a' then some (some c, rest) else none
  | ['!'] => none
  | rest => some (none, rest)

/-- The parts of a formatted string from here on, and what follows them. `first` is the line that the
string starts on, `line` the current one. What is left of the string tells its fields apart. -/
def pieces (r : Rules) (isRaw : Bool) (first : Nat) (place : Place) :
    (fuel : Nat) → (level line : Nat) → List Char → Option (List Piece × List Char)
  | 0, _, _, _ => none
  | fuel + 1, level, line, cs => do
    let (raw, doubled, rest) ← literalText isRaw level false cs
    let text ← textOf? isRaw raw
    let after (rest : List Char) : Nat := line + (cs.take (cs.length - rest.length)).count '\n'
    if doubled then
      let (ps, rest') ← pieces r isRaw first place fuel level (after rest) rest
      return (.text text :: ps, rest')
    else match rest with
      | '{' :: body => do
        if 2 ≤ level then none
        let (source, rest) ← fieldText {} body
        let e ← fieldExpression r (after ('{' :: body)) (body.length :: place) source
        let (shown, rest) := match rest with
          | '=' :: rest =>
            let blanks := rest.takeWhile isAsciiSpace
            (codesOf (source ++ '=' :: blanks), rest.dropWhile isAsciiSpace)
          | rest => ([], rest)
        let (conv, rest) ← conversion rest
        let (spec, rest) ← match rest with
          | ':' :: rest => do
            let (ps, rest') ← pieces r isRaw first place fuel (level + 1) (after rest) rest
            let es := (Piece.merge ps).map (Piece.expr first { place })
            pure (some (Expr.joined first es), rest')
          | rest => pure (none, rest)
        let '}' :: rest := rest | none
        let conv := if !shown.isEmpty && conv.isNone && spec.isNone then some 'r' else conv
        let (ps, rest') ← pieces r isRaw first place fuel level (after rest) rest
        return (.text text :: .text shown :: .field (.formatted first e conv spec) :: ps, rest')
      | rest => return ([.text text], rest)

def stringPieces (r : Rules) (first : Nat) (t : StringToken) : Option (List Piece) :=
  if t.isFormatted then do
    let (ps, rest) ← pieces r t.isRaw first t.place (t.body.length + 1) 0 t.line t.body
    if rest.isEmpty then return ps else none
  else do return [.text (← textOf? t.isRaw t.body)]

def stringToken : Parser StringToken := do
  match ← get with
  | ⟨.string t, _, _⟩ :: rest => do
    set rest
    return t
  | _ => failure

/-- Neighbouring strings are one. Byte strings and texts do not mix. -/
def strings (r : Rules) : Parser Expr := do
  let line ← Parser.line
  let place ← Parser.place
  let tokens ← many1 r.bound stringToken
  let spelling : Spelling := { marked := tokens.head?.any (·.isMarked), place }
  if tokens.all (·.isBytes) then
    match tokens.mapM bytesOf? with
    | some bs => return .constant line (.bytes bs.flatten) { place }
    | none => failure
  else if tokens.any (·.isBytes) then failure
  else match tokens.mapM (stringPieces r line) with
    | none => failure
    | some parts =>
      let merged := Piece.merge parts.flatten
      if tokens.any (·.isFormatted) then
        return .joined line (merged.map (Piece.expr line spelling))
      else match merged with
        | [.text codes] => return .constant line (.str ⟨codes⟩) spelling
        | _ => return .constant line (.str ⟨[]⟩) spelling

def parenthesized (r : Rules) : Parser Expr := do
  let line ← Parser.line
  expect "("
  if ← accept ")" then return .tuple line []
  else if ← sees "yield" then
    let e ← yieldExpression r
    expect ")"
    return e
  else
    let e ← starNamedExpression r
    if ← seesClause then
      if isStarred e then failure
      let cs ← clauses r
      expect ")"
      return .generator line e cs
    else
      let (es, trailing) ← commaRest r.bound (starNamedExpression r)
      expect ")"
      if es.isEmpty && !trailing then
        if isStarred e then failure
        return e
      else return .tuple line (e :: es)

def bracketed (r : Rules) : Parser Expr := do
  let line ← Parser.line
  expect "["
  if ← accept "]" then return .list line []
  else
    let e ← starNamedExpression r
    if ← seesClause then
      if isStarred e then failure
      let cs ← clauses r
      expect "]"
      return .listOf line e cs
    else
      let (es, _) ← commaRest r.bound (starNamedExpression r)
      expect "]"
      return .list line (e :: es)

def dictItem (r : Rules) : Parser (DictItem Expr) := do
  if ← accept "**" then return ⟨none, ← r.bitwiseOr⟩
  else
    let key ← r.expression
    expect ":"
    return ⟨some key, ← r.expression⟩

def dictRest (r : Rules) (line : Nat) (first : DictItem Expr) : Parser Expr := do
  let (items, _) ← commaRest r.bound (dictItem r)
  expect "\x7d"
  return .dict line (first :: items)

def setRest (r : Rules) (line : Nat) (first : Expr) : Parser Expr := do
  if ← seesClause then
    if isStarred first then failure
    let cs ← clauses r
    expect "\x7d"
    return .setOf line first cs
  else
    let (es, _) ← commaRest r.bound (starNamedExpression r)
    expect "\x7d"
    return .set line (first :: es)

def braced (r : Rules) : Parser Expr := do
  let line ← Parser.line
  expect "\x7b"
  if ← accept "\x7d" then return .dict line []
  else if ← accept "**" then dictRest r line ⟨none, ← r.bitwiseOr⟩
  else
    -- A named expression is a key only in parentheses.
    let isNamed := (← nameBefore? ":=").isSome
    let e ← starNamedExpression r
    if !isStarred e && !isNamed && (← accept ":") then
      let value ← r.expression
      if ← seesClause then
        let cs ← clauses r
        expect "\x7d"
        return .dictOf line e value cs
      else dictRest r line ⟨some e, value⟩
    else setRest r line e

def constants : List (String × Value) := [
  ("None", .null), ("True", .bool true), ("False", .bool false), ("...", .ellipsis)]

def atom (r : Rules) : Parser Expr := do
  let line ← Parser.line
  let place ← Parser.place
  match (← get).head?.map Token.kind with
  | some (.name id) => do
    skip
    return .name line id .load
  | some (.number v) => do
    skip
    return .constant line v { place }
  | some (.string _) => strings r
  | some (.operator "(") => parenthesized r
  | some (.operator "[") => bracketed r
  | some (.operator "\x7b") => braced r
  | _ => match ← oneOf constants with
    | some v => return .constant line v { place }
    | none => failure

inductive ArgumentPhase where
  | positional | named | unpacked
  deriving DecidableEq

inductive Argument where
  | plain (e : Expr)
  | keyword (k : Keyword Expr)

def Argument.value : Argument → Expr
  | .plain e => e
  | .keyword k => k.value

/-- One argument; positional ones come before named ones, and `*` before `**`. -/
def argument (r : Rules) (phase : ArgumentPhase) : Parser (Argument × ArgumentPhase) := do
  let line ← Parser.line
  if ← accept "**" then return (.keyword ⟨none, ← r.expression⟩, .unpacked)
  else if ← accept "*" then
    if phase = .unpacked then failure
    return (.plain (.starred line (← r.expression)), phase)
  else match ← nameBefore? "=" with
    | some id => do
      skip
      skip
      let value ← r.expression
      return (.keyword ⟨some id, value⟩, if phase = .unpacked then .unpacked else .named)
    | none => do
      if phase ≠ .positional then failure
      let e ← namedExpression r
      if ← sees "=" then failure
      return (.plain e, .positional)

def argumentRest (r : Rules) : (bound : Nat) → ArgumentPhase → Parser (List Argument)
  | 0, _ => return []
  | bound + 1, phase => do
    if ← accept "," then
      match ← attempt (argument r phase) with
      | some (a, phase) => return a :: (← argumentRest r bound phase)
      | none => return []
    else return []

/-- The arguments up to the closing parenthesis. In a call that opens on a line, a generator can stand
alone. -/
def arguments (r : Rules) (callLine : Option Nat) : Parser (List Argument) := do
  if ← accept ")" then return []
  else
    let (a, phase) ← argument r .positional
    match a, callLine with
    | .plain e, some line =>
      if !isStarred e && (← seesClause) then
        let cs ← clauses r
        expect ")"
        return [.plain (.generator line e cs)]
    | _, _ => pure ()
    let as ← argumentRest r r.bound phase
    expect ")"
    return a :: as

def makeCall (line : Nat) (function : Expr) (as : List Argument) : Expr :=
  let plain := as.filterMap fun
    | .plain e => some e
    | _ => none
  let keywords := as.filterMap fun
    | .keyword k => some k
    | _ => none
  .call ⟨line, function, plain, keywords⟩

def seesAny (words : List String) : Parser Bool := do
  return (← get).head?.any fun t => words.any (isWord · t)

def unlessSees (r : Rules) (words : List String) : Parser (Option Expr) := do
  if ← seesAny words then return none else return some (← r.expression)

def sliceAfter (r : Rules) (line : Nat) (lower : Option Expr) : Parser Expr := do
  expect ":"
  let upper ← unlessSees r [":", ",", "]"]
  if ← accept ":" then return .slice line lower upper (← unlessSees r [",", "]"])
  else return .slice line lower upper none

def sliceItem (r : Rules) : Parser Expr := do
  let line ← Parser.line
  if ← accept "*" then return .starred line (← r.expression)
  else if ← sees ":" then sliceAfter r line none
  else
    let isNamed := (← nameBefore? ":=").isSome
    let e ← namedExpression r
    if !isNamed && (← sees ":") then sliceAfter r line (some e) else return e

def slices (r : Rules) : Parser Expr := do
  let line ← Parser.line
  let (items, trailing) ← commaList r.bound (sliceItem r)
  expect "]"
  match items, trailing with
  | [e], false => return if isStarred e then .tuple line [e] else e
  | es, _ => return .tuple line es

def trailer (r : Rules) (line : Nat) (e : Expr) : Parser (Option Expr) := do
  let here ← Parser.line
  if ← accept "." then return some (.attribute line e (← name))
  else if ← accept "(" then return some (makeCall line e (← arguments r (some here)))
  else if ← accept "[" then return some (.subscript line e (← slices r))
  else return none

def primary (r : Rules) : Parser Expr := do
  let line ← Parser.line
  chain r.bound (trailer r line) (← atom r)

def awaitPrimary (r : Rules) : Parser Expr := do
  let line ← Parser.line
  if ← accept "await" then return .await line (← primary r)
  else primary r

def power (r : Rules) : Parser Expr := do
  let line ← Parser.line
  let base ← awaitPrimary r
  if ← accept "**" then return .binary line .pow base (← r.factor)
  else return base

def factor (r : Rules) : Parser Expr := do
  let line ← Parser.line
  match ← oneOf [("+", UnaryOperator.plus), ("-", .minus), ("~", .invert)] with
  | some op => return .unary line op (← r.factor)
  | none => power r

def leftAssociative (r : Rules) (operators : List (String × BinaryOperator)) (operand : Parser Expr) :
    Parser Expr := do
  let line ← Parser.line
  let step (left : Expr) : Parser (Option Expr) := do
    match ← oneOf operators with
    | some op => return some (.binary line op left (← operand))
    | none => return none
  chain r.bound step (← operand)

def term (r : Rules) : Parser Expr :=
  leftAssociative r [("*", .mul), ("/", .div), ("//", .floorDiv), ("%", .mod), ("@", .matMul)] (factor r)

def sum (r : Rules) : Parser Expr := leftAssociative r [("+", .add), ("-", .sub)] (term r)

def shift (r : Rules) : Parser Expr :=
  leftAssociative r [("<<", .shiftLeft), (">>", .shiftRight)] (sum r)

def bitwiseAnd (r : Rules) : Parser Expr := leftAssociative r [("&", .bitAnd)] (shift r)

def bitwiseXor (r : Rules) : Parser Expr := leftAssociative r [("^", .bitXor)] (bitwiseAnd r)

def bitwiseOr (r : Rules) : Parser Expr := leftAssociative r [("|", .bitOr)] (bitwiseXor r)

def comparison? : Parser (Option Comparison) := do
  let simple ← oneOf [("==", Comparison.eq), ("!=", .ne), ("<=", .le), ("<", .lt), (">=", .ge),
    (">", .gt), ("in", .isIn)]
  match simple with
  | some c => return some c
  | none =>
    if ← sees "not" then
      if ← seesNext "in" then
        skip
        skip
        return some .notIn
      else return none
    else if ← accept "is" then return some (if ← accept "not" then .isNot else .is)
    else return none

def comparison (r : Rules) : Parser Expr := do
  let line ← Parser.line
  let left ← bitwiseOr r
  let rest ← many r.bound do
    match ← comparison? with
    | some op => return ⟨op, ← bitwiseOr r⟩
    | none => failure
  return if rest.isEmpty then left else .compare line left rest

def inversion (r : Rules) : Parser Expr := do
  let line ← Parser.line
  if ← accept "not" then return .unary line .not (← r.inversion)
  else comparison r

def junction (r : Rules) (word : String) (operator : Junction) (operand : Parser Expr) :
    Parser Expr := do
  let line ← Parser.line
  let first ← operand
  let rest ← many r.bound do
    expect word
    operand
  return if rest.isEmpty then first else .junction line operator (first :: rest)

def conjunction (r : Rules) : Parser Expr := junction r "and" .and (inversion r)

def disjunction (r : Rules) : Parser Expr := junction r "or" .or (conjunction r)

structure ParameterState where
  parameters : Parameters Expr := {}
  /-- A positional parameter had a default. -/
  defaulted : Bool := false
  starred : Bool := false

/-- A parameter without its default. -/
def parameter (r : Rules) (annotated : Bool) (star : Bool) : Parser (Parameter Expr) := do
  let name ← Parser.name
  if annotated then
    if ← accept ":" then
      let typeHint ← if star then starExpression r else r.expression
      return { name, typeHint := some typeHint }
  return { name }

def default? (r : Rules) : Parser (Option Expr) := do
  if ← accept "=" then return some (← r.expression) else return none

def ParameterState.add (s : ParameterState) (p : Parameter Expr) : Option ParameterState :=
  let ps := s.parameters
  if s.starred then some { s with parameters := { ps with keywordOnly := ps.keywordOnly ++ [p] } }
  else if s.defaulted && p.default.isNone then none
  else some { s with
    parameters := { ps with positional := ps.positional ++ [p] }
    defaulted := p.default.isSome }

def ParameterState.slash (s : ParameterState) : Option ParameterState :=
  let ps := s.parameters
  if s.starred || ps.positional.isEmpty || !ps.positionalOnly.isEmpty then none
  else some { s with parameters := { ps with positionalOnly := ps.positional, positional := [] } }

/-- Parameters up to `stop`, which is not consumed. -/
def parametersFrom (r : Rules) (annotated : Bool) (stop : String) :
    (bound : Nat) → ParameterState → Parser (Parameters Expr)
  | 0, _ => failure
  | bound + 1, s => do
    let next (s : ParameterState) : Parser (Parameters Expr) := do
      if ← accept "," then parametersFrom r annotated stop bound s
      else if ← sees stop then return s.parameters
      else failure
    if ← sees stop then return s.parameters
    else if ← accept "/" then
      match s.slash with
      | some s => next s
      | none => failure
    else if ← accept "**" then
      let p ← parameter r annotated false
      let _ ← accept ","
      if ← sees stop then return { s.parameters with keywordRest := some p } else failure
    else if ← accept "*" then
      if s.starred then failure
      if ← sees "," then
        -- A bare star needs a parameter after it.
        match (← get).drop 1 with
        | ⟨.name _, _, _⟩ :: _ => next { s with starred := true }
        | _ => failure
      else
        let p ← parameter r annotated true
        next { s with starred := true, parameters := { s.parameters with rest := some p } }
    else
      let p ← parameter r annotated false
      match s.add { p with default := ← default? r } with
      | some s => next s
      | none => failure

def parameters (r : Rules) (annotated : Bool) (stop : String) : Parser (Parameters Expr) :=
  parametersFrom r annotated stop r.bound {}

def lambda (r : Rules) : Parser Expr := do
  let line ← Parser.line
  expect "lambda"
  let ps ← parameters r false ":"
  expect ":"
  return .lambda line ps (← r.expression)

def expression (r : Rules) : Parser Expr := do
  if ← sees "lambda" then lambda r
  else
    let line ← Parser.line
    let body ← disjunction r
    let rest ← attempt do
      expect "if"
      let test ← disjunction r
      expect "else"
      return (test, ← r.expression)
    match rest with
    | some (test, orelse) => return .conditional line test body orelse
    | none => return body

def rules (bound : Nat) : (depth : Nat) → Rules
  | 0 => ⟨bound, failure, failure, failure, failure, failure, failure⟩
  | depth + 1 =>
    let r := rules bound depth
    { bound
      atom := atom r
      factor := factor r
      inversion := inversion r
      bitwiseOr := bitwiseOr r
      disjunction := disjunction r
      expression := expression r }

end CallTime.Source.Grammar

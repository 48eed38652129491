import CallTime.Source.Grammar.Pattern

/-!
The grammar of statements and modules.
-/

namespace CallTime.Source.Grammar

open Source.Parser

def assigned (r : Rules) : Parser Expr := do
  if ← sees "yield" then yieldExpression r else starExpressions r

def augmented : List (String × BinaryOperator) := [
  ("+=", .add), ("-=", .sub), ("*=", .mul), ("@=", .matMul), ("/=", .div), ("%=", .mod),
  ("&=", .bitAnd), ("|=", .bitOr), ("^=", .bitXor), ("<<=", .shiftLeft), (">>=", .shiftRight),
  ("**=", .pow), ("//=", .floorDiv)]

def orFail {α : Type} : Option α → Parser α
  | some a => return a
  | none => failure

/-- The rest of a chain of assignments: every side but the last is a target. -/
def assignments (r : Rules) (line : Nat) :
    (bound : Nat) → (targets : List Expr) → (last : Expr) → Parser Stmt
  | 0, _, _ => failure
  | bound + 1, targets, last => do
    if ← accept "=" then
      let target ← orFail (last.asTarget? .store true)
      assignments r line bound (targets ++ [target]) (← assigned r)
    else return if targets.isEmpty then .expr line last else .assign line targets last

def expressionStatement (r : Rules) : Parser Stmt := do
  let line ← Parser.line
  let inParentheses ← sees "("
  let e ← starExpressions r
  if ← accept ":" then
    let target ← orFail e.asSingleTarget?
    let typeHint ← r.expression
    let value ← if ← accept "=" then pure (some (← assigned r)) else pure none
    return .annotate line target typeHint value inParentheses
  else match ← oneOf augmented with
    | some op => do
      let target ← orFail e.asSingleTarget?
      return .augment line target op (← assigned r)
    | none => assignments r line r.bound [] e

def dottedName (r : Rules) : Parser String := do
  let first ← name
  let rest ← many r.bound do
    expect "."
    name
  return ".".intercalate (first :: rest)

def newName : Parser (Option String) := do
  if ← accept "as" then return some (← name) else return none

def importStatement (r : Rules) : Parser Stmt := do
  let line ← Parser.line
  expect "import"
  let one : Parser Alias := do
    let module ← dottedName r
    return ⟨module, ← newName⟩
  let (names, trailing) ← commaList r.bound one
  if trailing then failure
  return .importNames line names

def importFromStatement (r : Rules) : Parser Stmt := do
  let line ← Parser.line
  expect "from"
  let dots ← many r.bound do
    match ← oneOf [(".", ()), ("...", ())] with
    | some _ => return ()
    | none => failure
  let module ← attempt (dottedName r)
  if dots.isEmpty && module.isNone then failure
  expect "import"
  let one : Parser Alias := do
    let id ← name
    return ⟨id, ← newName⟩
  if ← accept "*" then return .importNames line [⟨"*", none⟩]
  else if ← accept "(" then
    let (names, _) ← commaList r.bound one
    expect ")"
    return .importNames line names
  else
    let (names, trailing) ← commaList r.bound one
    if trailing then failure
    return .importNames line names

def seesStatementEnd : Parser Bool := do
  match (← get).head? with
  | some ⟨.newline, _, _⟩ => return true
  | some t => return isWord ";" t
  | none => return true

def deleteStatement (r : Rules) : Parser Stmt := do
  let line ← Parser.line
  expect "del"
  let (items, _) ← commaList r.bound r.bitwiseOr
  if !(← seesStatementEnd) then failure
  return .delete line (← orFail (Expr.asTargets? .delete false items))

def raiseStatement (r : Rules) : Parser Stmt := do
  let line ← Parser.line
  expect "raise"
  if ← seesStatementEnd then return .raise line none none
  else
    let exception ← r.expression
    let cause ← if ← accept "from" then pure (some (← r.expression)) else pure none
    return .raise line (some exception) cause

def assertStatement (r : Rules) : Parser Stmt := do
  let line ← Parser.line
  expect "assert"
  let test ← r.expression
  let message ← if ← accept "," then pure (some (← r.expression)) else pure none
  return .assert line test message

def declaration (r : Rules) (word : String) : Parser Stmt := do
  let line ← Parser.line
  expect word
  let (names, trailing) ← commaList r.bound name
  if trailing then failure
  return .declare line names

def returnStatement (r : Rules) : Parser Stmt := do
  let line ← Parser.line
  expect "return"
  return .ret line (← attempt (starExpressions r))

def simpleStatement (r : Rules) : Parser Stmt := do
  let line ← Parser.line
  match (← get).head?.map Token.kind with
  | some (.keyword "return") => returnStatement r
  | some (.keyword "import") => importStatement r
  | some (.keyword "from") => importFromStatement r
  | some (.keyword "raise") => raiseStatement r
  | some (.keyword "del") => deleteStatement r
  | some (.keyword "yield") => return .expr line (← yieldExpression r)
  | some (.keyword "assert") => assertStatement r
  | some (.keyword "global") => declaration r "global"
  | some (.keyword "nonlocal") => declaration r "nonlocal"
  | some (.keyword "pass") => do
    skip
    return .pass line
  | some (.keyword "break") => do
    skip
    return .breakLoop line
  | some (.keyword "continue") => do
    skip
    return .continueLoop line
  | _ => expressionStatement r

def simpleStatements (r : Rules) : Parser (List Stmt) := do
  let first ← simpleStatement r
  let rest ← many r.bound do
    expect ";"
    simpleStatement r
  let _ ← accept ";"
  newline
  return first :: rest

abbrev Block := Parser (List Stmt)

def elseBlock (block : Block) : Parser (List Stmt) := do
  if ← accept "else" then
    expect ":"
    block
  else return []

/-- The rest of an `if` after its first word. -/
def ifRest (r : Rules) (block : Block) : (bound : Nat) → (line : Nat) → Parser Stmt
  | 0, _ => failure
  | bound + 1, line => do
    let test ← namedExpression r
    expect ":"
    let body ← block
    let here ← Parser.line
    if ← accept "elif" then return .ifElse line test body [← ifRest r block bound here]
    else return .ifElse line test body (← elseBlock block)

def whileStatement (r : Rules) (block : Block) (line : Nat) : Parser Stmt := do
  expect "while"
  let test ← namedExpression r
  expect ":"
  let body ← block
  return .whileLoop line test body (← elseBlock block)

def forStatement (r : Rules) (block : Block) (line : Nat) : Parser Stmt := do
  expect "for"
  let target ← loopTargets r
  expect "in"
  let source ← starExpressions r
  expect ":"
  let body ← block
  return .forLoop line target source body (← elseBlock block)

def withItem (r : Rules) : Parser WithItem := do
  let context ← r.expression
  let target ← attempt do
    expect "as"
    let line ← Parser.line
    let e ← if ← accept "*" then pure (.starred line (← r.bitwiseOr)) else r.bitwiseOr
    if !(← seesAny [",", ")", ":"]) then failure
    orFail (e.asTarget? .store true)
  return { context, target }

/-- The items of a `with`, in parentheses or not, up to the colon. -/
def withItems (r : Rules) : Parser (List WithItem) := do
  let inParentheses ← attempt do
    expect "("
    let (items, _) ← commaList r.bound (withItem r)
    expect ")"
    expect ":"
    return items
  match inParentheses with
  | some items => return items
  | none => do
    let (items, trailing) ← commaList r.bound (withItem r)
    if trailing then failure
    expect ":"
    return items

def withStatement (r : Rules) (block : Block) (line : Nat) : Parser Stmt := do
  expect "with"
  let items ← withItems r
  return .withBlock line items (← block)

/-- One handler; `group` tells whether it takes exception groups. -/
def handler (r : Rules) (block : Block) (group : Bool) : Parser Handler := do
  expect "except"
  if group then expect "*"
  else if ← sees "*" then failure
  if !group && (← accept ":") then return .mk none none (← block)
  else
    let type ← r.expression
    let id ← if ← accept "as" then pure (some (← name)) else pure none
    expect ":"
    return .mk (some type) id (← block)

def finallyBlock (block : Block) : Parser (List Stmt) := do
  if ← accept "finally" then
    expect ":"
    block
  else return []

def tryStatement (r : Rules) (block : Block) (line : Nat) : Parser Stmt := do
  expect "try"
  expect ":"
  let body ← block
  if ← sees "finally" then return .tryBlock line body [] [] (← finallyBlock block)
  else
    let group := (← sees "except") && (← seesNext "*")
    let handlers ← many1 r.bound (handler r block group)
    let orelse ← elseBlock block
    let final ← finallyBlock block
    return if group then .tryGroup line body handlers orelse final
      else .tryBlock line body handlers orelse final

def functionStatement (r : Rules) (block : Block) (line : Nat) (decorators : List Expr := []) :
    Parser Stmt := do
  expect "def"
  let id ← name
  expect "("
  let ps ← parameters r true ")"
  expect ")"
  let typeHint ← if ← accept "->" then pure (some (← r.expression)) else pure none
  expect ":"
  return .functionDef line id ps (← block) (decorators ++ typeHint.toList)

def classStatement (r : Rules) (block : Block) (line : Nat) (decorators : List Expr := []) :
    Parser Stmt := do
  expect "class"
  let id ← name
  let bases ← if ← accept "(" then arguments r none else pure []
  expect ":"
  return .classDef line id (← block) (decorators ++ bases.map Argument.value)

def caseBlock (r : Rules) (block : Block) : Parser MatchCase := do
  softKeyword "case"
  let pattern ← casePattern r
  let guard ← if ← accept "if" then pure (some (← namedExpression r)) else pure none
  expect ":"
  return .mk pattern guard (← block)

def subject (r : Rules) : Parser Expr := do
  let line ← Parser.line
  let (items, trailing) ← commaList r.bound (starNamedExpression r)
  match items, trailing with
  | [e], false => if isStarred e then failure else return e
  | es, _ => return .tuple line es

def matchStatement (r : Rules) (block : Block) (line : Nat) : Parser Stmt := do
  softKeyword "match"
  let e ← subject r
  expect ":"
  newline
  indent
  let cases ← many1 r.bound (caseBlock r block)
  dedent
  return .matchCases line e cases

def decorated (r : Rules) (block : Block) : Parser Stmt := do
  let decorators ← many1 r.bound do
    expect "@"
    let e ← namedExpression r
    newline
    return e
  let line ← Parser.line
  if ← sees "class" then classStatement r block line decorators
  else
    let _ ← accept "async"
    functionStatement r block line decorators

/-- A statement after `async`. -/
def asyncStatement (r : Rules) (block : Block) (line : Nat) : Parser Stmt := do
  expect "async"
  if ← sees "def" then functionStatement r block line
  else if ← sees "with" then withStatement r block line
  else forStatement r block line

def statements (r : Rules) (block : Block) : Parser (List Stmt) := do
  let line ← Parser.line
  match (← get).head?.map Token.kind with
  | some (.keyword "def") => return [← functionStatement r block line]
  | some (.operator "@") => return [← decorated r block]
  | some (.keyword "async") => return [← asyncStatement r block line]
  | some (.keyword "if") => do
    skip
    return [← ifRest r block r.bound line]
  | some (.keyword "class") => return [← classStatement r block line]
  | some (.keyword "with") => return [← withStatement r block line]
  | some (.keyword "for") => return [← forStatement r block line]
  | some (.keyword "try") => return [← tryStatement r block line]
  | some (.keyword "while") => return [← whileStatement r block line]
  | some (.name "match") => do
    match ← attempt (matchStatement r block line) with
    | some s => return [s]
    | none => simpleStatements r
  | _ => simpleStatements r

def blockAt (r : Rules) : (depth : Nat) → Block
  | 0 => failure
  | depth + 1 => do
    match ← attempt newline with
    | some _ => do
      indent
      let ss ← many1 r.bound (statements r (blockAt r depth))
      dedent
      return ss.flatten
    | none => simpleStatements r

end Grammar

/-- The statements of a module, or `none` if the source is not a Python program. -/
def readModule? (source : List Char) : Option (List Stmt) := do
  let tokens ← Token.scan 1 [] source
  let bound := source.length + 2
  let r := Grammar.rules bound bound
  let (ss, rest) ← (Parser.many bound (Grammar.statements r (Grammar.blockAt r bound))).run tokens
  if rest.isEmpty then return ss.flatten else none

end CallTime.Source

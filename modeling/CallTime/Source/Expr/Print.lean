import CallTime.Fault
import CallTime.Source.Expr
import CallTime.Value.Convert
import CallTime.Value.Print

/-!
The text of an expression in a canonical form: single spaces, parentheses only where they are needed.

An expression is printed at a precedence; one that binds less tightly is put in parentheses.
-/

namespace CallTime.Source.Expr

namespace Precedence

def named : Nat := 1
def tuple : Nat := 2
def yield : Nat := 3
def test : Nat := 4
def or : Nat := 5
def and : Nat := 6
def not : Nat := 7
def comparison : Nat := 8
def bitOr : Nat := 9
def bitXor : Nat := 10
def bitAnd : Nat := 11
def shift : Nat := 12
def arithmetic : Nat := 13
def term : Nat := 14
def factor : Nat := 15
def power : Nat := 16
def await : Nat := 17
def atom : Nat := 18

end Precedence

def binaryText : BinaryOperator → String × Nat
  | .add => ("+", Precedence.arithmetic)
  | .sub => ("-", Precedence.arithmetic)
  | .mul => ("*", Precedence.term)
  | .matMul => ("@", Precedence.term)
  | .div => ("/", Precedence.term)
  | .mod => ("%", Precedence.term)
  | .floorDiv => ("//", Precedence.term)
  | .pow => ("**", Precedence.power)
  | .shiftLeft => ("<<", Precedence.shift)
  | .shiftRight => (">>", Precedence.shift)
  | .bitOr => ("|", Precedence.bitOr)
  | .bitXor => ("^", Precedence.bitXor)
  | .bitAnd => ("&", Precedence.bitAnd)

def unaryText : UnaryOperator → String × Nat
  | .invert => ("~", Precedence.factor)
  | .not => ("not ", Precedence.not)
  | .plus => ("+", Precedence.factor)
  | .minus => ("-", Precedence.factor)

def comparisonText : Comparison → String
  | .eq => "=="
  | .ne => "!="
  | .lt => "<"
  | .le => "<="
  | .gt => ">"
  | .ge => ">="
  | .is => "is"
  | .isNot => "is not"
  | .isIn => "in"
  | .notIn => "not in"

def junctionText : Junction → String × Nat
  | .and => (" and ", Precedence.and)
  | .or => (" or ", Precedence.or)

def parenthesize (needed : Bool) (s : String) : String := if needed then "(" ++ s ++ ")" else s

def commas (ss : List String) : String := ", ".intercalate ss

def itemsText : List String → String
  | [s] => s ++ ","
  | ss => commas ss

namespace Literal

def singleQuotes : List (List Char) := [['\''], ['"']]

def tripleQuotes : List (List Char) := [['"', '"', '"'], ['\'', '\'', '\'']]

def quotes : List (List Char) := singleQuotes ++ tripleQuotes

def occurs (part : List Char) : List Char → Bool
  | [] => part.isEmpty
  | c :: cs => part.isPrefixOf (c :: cs) || occurs part cs

/-- Line feeds and tabs are kept unless `escapeSpace`. -/
def escape (escapeSpace : Bool) (n : Nat) : List Char :=
  let isKept := !escapeSpace && (n = '\n'.toNat || n = '\t'.toNat)
  if isKept || n ≠ '\\'.toNat && isPrintable n then [Char.ofNat n] else Quoted.escapeCode n

def preferOther (last : Char) (qs : List (List Char)) : List (List Char) :=
  qs.filter (·.head? ≠ some last) ++ qs.filter (·.head? = some last)

/-- The body of a text with as few escapes as possible, and the quotes that fit around it. -/
def fit (escapeSpace : Bool) (allowed : List (List Char)) (codes : List Nat) :
    List Char × List (List Char) :=
  let body := codes.flatMap (escape escapeSpace)
  let possible := if body.contains '\n' then allowed.filter (tripleQuotes.contains ·) else allowed
  let possible := possible.filter (!occurs · body)
  if possible.isEmpty then
    let q := Quoted.quoteFor codes
    (Quoted.body q codes, [(allowed.find? (·.contains q)).getD [q]])
  else match body.getLast? with
    | none => (body, possible)
    | some last =>
      let possible := preferOther last possible
      if possible.head?.bind List.head? = some last then
        (body.dropLast ++ ['\\', last], possible)
      else (body, possible)

def between (quote body : List Char) : String := String.ofList (quote ++ body ++ quote)

/-- A text in quotes, without backslashes if there is a way. -/
def plain (codes : List Nat) : String :=
  let (body, qs) := fit false quotes codes
  between (qs.head?.getD []) body

/-- Fits the parts of a formatted string one after the other into common quotes. A part is its text and
whether it stands for itself. -/
def fitParts (allowed : List (List Char)) :
    List (List Nat × Bool) → Option (List Char × List (List Char))
  | [] => some ([], allowed)
  | (codes, isText) :: rest =>
    let (body, qs) := fit isText allowed codes
    if qs.any (allowed.contains ·) then do
      let (bodies, qs) ← fitParts qs rest
      return (body ++ bodies, qs)
    else none

/-- A formatted string. When no quotes fit all its parts, every part is escaped between triple single
quotes. -/
def formatted (parts : List (List Nat × Bool)) : String :=
  match fitParts quotes parts with
  | some (body, qs) => between (qs.head?.getD []) body
  | none => between ['\'', '\'', '\''] (parts.flatMap fun p => Quoted.body '\'' p.1)

def doubleBraces (codes : List Nat) : List Nat :=
  codes.flatMap fun n => if n = '{'.toNat || n = '}'.toNat then [n, n] else [n]

end Literal

/-- The text of a constant; with `plain` a text avoids backslashes. -/
def constantText (plain : Bool) (v : Value) : Except Fault String :=
  match v with
  | .ellipsis => .ok "..."
  | .float _ | .complex _ _ => do return (← v.literal).replace "inf" "1e309"
  | .str s => if plain then .ok (Literal.plain s.codes) else v.literal
  | v => v.literal

def isWholeNumber : Expr → Bool
  | .constant _ (.int _) _ | .constant _ (.bool _) _ => true
  | _ => false

def parameterText (text : Expr → Except Fault String) (p : Parameter Expr) : Except Fault String := do
  let typeHint ← match p.typeHint with
    | some e => do pure (": " ++ (← text e))
    | none => pure ""
  let default ← match p.default with
    | some e => do pure ("=" ++ (← text e))
    | none => pure ""
  return p.name ++ typeHint ++ default

def parametersText (text : Expr → Except Fault String) (ps : Parameters Expr) :
    Except Fault String := do
  let parameter := parameterText text
  let first ← ps.positionalOnly.mapM parameter
  let slash := if ps.positionalOnly.isEmpty then [] else ["/"]
  let second ← ps.positional.mapM parameter
  let star ← match ps.rest with
    | some p => do pure ["*" ++ (← parameter p)]
    | none => pure (if ps.keywordOnly.isEmpty then [] else ["*"])
  let third ← ps.keywordOnly.mapM parameter
  let last ← match ps.keywordRest with
    | some p => do pure ["**" ++ (← parameter p)]
    | none => pure []
  return commas (first ++ slash ++ second ++ star ++ third ++ last)

/-- The part of a formatted string that stands for an expression or for text; `inner` prints the
expression of a replacement field, which can have no backslash. -/
def fieldAt (inner : Expr → Except Fault String) : (fuel : Nat) → Expr → Except Fault (List Nat)
  | _, .constant _ (.str s) _ => .ok (Literal.doubleBraces s.codes)
  | 0, _ => .ok []
  | fuel + 1, .joined _ values => do return (← values.mapM (fieldAt inner fuel)).flatten
  | fuel + 1, .formatted _ value conversion spec => do
    let expression := (← inner value).toList
    if expression.contains '\\' then throw .wrongValue
    let gap := if expression.head? = some '{' then [' '] else []
    let conv := match conversion with
      | some c => ['!', c]
      | none => []
    let spec ← match spec with
      | some s => do pure (':'.toNat :: (← fieldAt inner fuel s))
      | none => pure []
    return codesOf ('{' :: gap ++ expression ++ conv) ++ spec ++ ['}'.toNat]
  | _, _ => .error .wrongValue

/-- Prints an expression that is nested at most `fuel` deep. Inside a replacement field no backslash
may be written; `plain` says so. -/
def textAt : (fuel : Nat) → (plain : Bool) → (precedence : Nat) → Expr → Except Fault String
  | 0, _, _, _ => .ok ""
  | fuel + 1, plain, precedence, e =>
    let at_ (p : Nat) (e : Expr) : Except Fault String := textAt fuel plain p e
    let text := at_ Precedence.test
    let clauses (cs : List (Clause Expr)) : Except Fault String := do
      let parts ← cs.mapM fun c => do
        let target ← at_ Precedence.tuple c.target
        let source ← at_ (Precedence.test + 1) c.source
        let conditions ← c.conditions.mapM fun e => do
          return " if " ++ (← at_ (Precedence.test + 1) e)
        return (if c.isAsync then " async for " else " for ") ++ target ++ " in " ++ source
          ++ "".intercalate conditions
      return "".intercalate parts
    let field := fieldAt (textAt fuel true (Precedence.test + 1)) fuel
    match e with
    | .junction _ operator values => do
      let (word, p) := junctionText operator
      let parts ← values.mapIdxM fun i v => at_ (min Precedence.atom (p + 1 + i)) v
      return parenthesize (p < precedence) (word.intercalate parts)
    | .named _ target value => do
      let t ← at_ Precedence.atom target
      let v ← at_ Precedence.atom value
      return parenthesize (Precedence.named < precedence) (t ++ " := " ++ v)
    | .binary _ operator left right => do
      let (word, p) := binaryText operator
      let l ← at_ (if operator = .pow then p + 1 else p) left
      let r ← at_ (if operator = .pow then p else p + 1) right
      return parenthesize (p < precedence) (l ++ " " ++ word ++ " " ++ r)
    | .unary _ operator operand => do
      let (word, p) := unaryText operator
      return parenthesize (p < precedence) (word ++ (← at_ p operand))
    | .lambda _ parameters body => do
      let ps ← parametersText text parameters
      let b ← text body
      let head := if ps.isEmpty then "lambda" else "lambda " ++ ps
      return parenthesize (Precedence.test < precedence) (head ++ ": " ++ b)
    | .conditional _ test body orelse => do
      let b ← at_ (Precedence.test + 1) body
      let t ← at_ (Precedence.test + 1) test
      let o ← text orelse
      return parenthesize (Precedence.test < precedence) (b ++ " if " ++ t ++ " else " ++ o)
    | .dict _ items => do
      let parts ← items.mapM fun i => do
        match i.key with
        | some k => do
          let key ← text k
          return key ++ ": " ++ (← text i.value)
        | none => return "**" ++ (← at_ Precedence.bitOr i.value)
      return "\x7b" ++ commas parts ++ "\x7d"
    | .set _ items => do return "\x7b" ++ commas (← items.mapM text) ++ "\x7d"
    | .list _ items => do return "[" ++ commas (← items.mapM text) ++ "]"
    | .tuple _ items => do
      let parts ← items.mapM text
      return parenthesize (items.isEmpty || Precedence.tuple < precedence) (itemsText parts)
    | .listOf _ item cs => do return "[" ++ (← text item) ++ (← clauses cs) ++ "]"
    | .setOf _ item cs => do return "\x7b" ++ (← text item) ++ (← clauses cs) ++ "\x7d"
    | .generator _ item cs => do return "(" ++ (← text item) ++ (← clauses cs) ++ ")"
    | .dictOf _ key value cs => do
      let k ← text key
      let v ← text value
      return "\x7b" ++ k ++ ": " ++ v ++ (← clauses cs) ++ "\x7d"
    | .await _ value => do
      return parenthesize (Precedence.await < precedence) ("await " ++ (← at_ Precedence.atom value))
    | .yield _ value => do
      let v ← match value with
        | some e => do pure (" " ++ (← at_ Precedence.atom e))
        | none => pure ""
      return parenthesize (Precedence.yield < precedence) ("yield" ++ v)
    | .yieldFrom _ value => do
      let v ← at_ Precedence.atom value
      return parenthesize (Precedence.yield < precedence) ("yield from " ++ v)
    | .compare _ left rest => do
      let p := Precedence.comparison
      let l ← at_ (p + 1) left
      let parts ← rest.mapM fun c => do
        return " " ++ comparisonText c.operator ++ " " ++ (← at_ (p + 1) c.value)
      return parenthesize (p < precedence) (l ++ "".intercalate parts)
    | .call site => do
      let f ← at_ Precedence.atom site.function
      let arguments ← site.arguments.mapM text
      let keywords ← site.keywords.mapM fun k => do
        return (match k.name with
          | some n => n ++ "="
          | none => "**") ++ (← text k.value)
      return f ++ "(" ++ commas (arguments ++ keywords) ++ ")"
    | .formatted _ _ _ _ => do return (Text.mk (← field e)).shown
    | .joined _ values => do
      if plain then
        let parts ← values.mapM field
        return "f" ++ Literal.plain parts.flatten
      else
        let parts ← values.mapM fun v => do
          let isText := match v with
            | .constant _ _ _ => true
            | _ => false
          return (← field v, isText)
        return "f" ++ Literal.formatted parts
    | .constant _ value spelling => do
      return (if spelling.marked then "u" else "") ++ (← constantText plain value)
    | .attribute _ value attr => do
      let v ← at_ Precedence.atom value
      return v ++ (if isWholeNumber value then " ." else ".") ++ attr
    | .subscript _ value index => do
      let v ← at_ Precedence.atom value
      let i ← match index with
        | .tuple _ (item :: items) => do pure (itemsText (← (item :: items).mapM text))
        | index => text index
      return v ++ "[" ++ i ++ "]"
    | .starred _ value => do return "*" ++ (← at_ Precedence.bitOr value)
    | .name _ id _ => .ok id
    | .slice _ lower upper step => do
      let part (e : Option Expr) : Except Fault String := match e with
        | some e => text e
        | none => .ok ""
      let l ← part lower
      let u ← part upper
      let s ← match step with
        | some e => do pure (":" ++ (← text e))
        | none => pure ""
      return l ++ ":" ++ u ++ s

/-- The text of an expression. It fails when a replacement field of a formatted string could only be
written with a backslash. -/
def text (e : Expr) : Except Fault String := textAt (e.size + 1) false Precedence.test e

end CallTime.Source.Expr

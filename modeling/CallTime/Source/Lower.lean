import CallTime.Artifact.Forest
import CallTime.Source.Binding
import CallTime.Source.Expr.Print
import CallTime.Source.Grammar.Stmt
import CallTime.Value.Arithmetic

/-!
Lowering a module to nodes.

Functions of the module and methods of its classes become functions; definitions inside them are left
out. Loops, `with` and `try` become blocks that run once, without exception handlers. A parameter that
the body binds anew is an ordinary name in all of the body, and a name that was assigned a constant on
the straight line through the body stands for that constant until it is bound again.
-/

namespace CallTime.Source

structure Constant where
  value : Value
  place : Place

structure Scope where
  className : Option String := none
  parameters : List String := []
  rebound : List String := []
  constants : OrderedMap String Constant := {}

namespace Scope

def parameterIndex? (s : Scope) (name : String) : Option Int :=
  if s.rebound.contains name then none
  else (s.parameters.findIdx? (· = name)).map Int.ofNat

def forget (s : Scope) (names : List String) : Scope :=
  { s with constants := names.foldl (·.erase ·) s.constants }

end Scope

def Comparison.text : Comparison → String := Expr.comparisonText

def Junction.text : Junction → String
  | .and => "and"
  | .or => "or"

/-- The operators that conditions are evaluated with. -/
def BinaryOperator.evaluated? : BinaryOperator → Option String
  | .add => some "+"
  | .sub => some "-"
  | .mul => some "*"
  | .div => some "/"
  | .floorDiv => some "//"
  | .mod => some "%"
  | _ => none

def negated? : Value → Option Value
  | .bool b => some (.int (if b then -1 else 0))
  | .int n => some (.int (-n))
  | .float x => some (.float x.neg)
  | _ => none

def calleeText (e : Expr) : String :=
  match e.text with
  | .ok s => s
  | .error _ => "<call>"

/-- The key of the function a call resolves to: a function of the module by name, or a method of the
class around it by `self` or `cls`. -/
def targetKey? (signatures : OrderedMap String Signature) (scope : Scope) : Expr → Option String
  | .name _ id _ => if signatures.contains id then some id else none
  | .attribute _ (.name _ receiver _) method =>
    match scope.className with
    | some c =>
      let key := c ++ "." ++ method
      if (receiver = "self" || receiver = "cls") && signatures.contains key then some key else none
    | none => none
  | _ => none

def comparisonSteps {α : Type} : α → List (Comparand α) → List (α × Comparison × α)
  | _, [] => []
  | left, c :: cs => (left, c.operator, c.value) :: comparisonSteps c.value cs

def foldDrafts (line : Nat) (operator : String) : List (Option Draft) → Option Draft
  | [] => none
  | d :: ds => ds.foldl (fun l r => some (.binary (some line) operator l r)) d

def gather (line : Nat) : List Draft → Option Draft
  | [] => none
  | [d] => some d
  | ds => some (.block (some line) ds)

def unknownDraft (name : String) : Draft := .reference none ("<" ++ name ++ ">") none

def passed {n : Nat} (e : { c : Expr // sizeOf c < n }) : Passed { c : Expr // sizeOf c < n } :=
  match e with
  | ⟨.starred line v, h⟩ => ⟨⟨v, by simp at h; omega⟩, true⟩
  | e => ⟨e, false⟩

def CallSite.passed (s : CallSite Expr) : List (Passed { c : Expr // sizeOf c < sizeOf s }) :=
  s.arguments.attach.map fun ⟨e, h⟩ =>
    Source.passed ⟨e, Expr.sizeOf_callSite s e (by simp [CallSite.parts, h])⟩

def CallSite.named (s : CallSite Expr) : List (Keyword { c : Expr // sizeOf c < sizeOf s }) :=
  s.keywords.attach.map fun ⟨k, h⟩ =>
    ⟨k.name, k.value, Expr.sizeOf_callSite s k.value (by
      simp only [CallSite.parts, List.mem_append, List.mem_map]
      exact .inr ⟨k, h, rfl⟩)⟩

def spareCalls {n : Nat} (e : { c : Expr // sizeOf c < n }) : List { s : CallSite Expr // sizeOf s < n } :=
  match e with
  | ⟨.call site, h⟩ => [⟨site, by simp at h; omega⟩]
  | ⟨e, h⟩ => e.innerCalls.attach.map fun ⟨s, hs⟩ =>
    ⟨s, Nat.lt_trans (Expr.sizeOf_innerCalls e s hs) h⟩

def comparisonParts (line : Nat) (left : Expr) (rest : List (Comparand Expr)) :
    List ({ c : Expr // sizeOf c < sizeOf (Expr.compare line left rest) } × Comparison ×
      { c : Expr // sizeOf c < sizeOf (Expr.compare line left rest) }) :=
  comparisonSteps ⟨left, by simp; omega⟩ <| rest.attach.map fun ⟨c, h⟩ =>
    ⟨c.operator, c.value, by
      have := Expr.sizeOf_comparands rest c h
      simp
      omega⟩

mutual

/-- Lowers an expression; `none` if it holds nothing to analyse. `level` bounds how often a default is
put in the place of a missing argument. -/
def lowerExpr (signatures : OrderedMap String Signature) (level : Nat) (scope : Scope) :
    Expr → Except Fault (Option Draft)
  | .constant line v spelling => return some (.literal (some line) v (some spelling.place))
  | .name line id _ => match scope.constants.get? id with
    | some c => return some (.literal (some line) c.value (some c.place))
    | none => return some (.reference (some line) id (scope.parameterIndex? id))
  | .call site => do return some (← lowerCall signatures level scope site)
  | .compare line left rest => do
    let steps ← (comparisonParts line left rest).mapM fun (l, op, r) => do
      let left ← lowerExpr signatures level scope l.1
      let right ← lowerExpr signatures level scope r.1
      return some (Draft.binary (some line) op.text left right)
    return foldDrafts line "and" steps
  | .binary line op left right => match op.evaluated? with
    | some word => do
      let l ← lowerExpr signatures level scope left
      let r ← lowerExpr signatures level scope right
      return some (.binary (some line) word l r)
    | none => lowerNested signatures level scope (.binary line op left right)
  | .junction line op values => do
    let drafts ← values.attach.mapM fun ⟨v, _⟩ => lowerExpr signatures level scope v
    return foldDrafts line op.text drafts
  | .unary line .not operand => do
    return some (.binary (some line) "not" (← lowerExpr signatures level scope operand) none)
  | .unary line .minus operand => match operand with
    | .constant _ v _ => match negated? v with
      | some w => return some (.literal (some line) w)
      | none => return none
    | operand => lowerNested signatures level scope (.unary line .minus operand)
  | e => lowerNested signatures level scope e
termination_by e => (level, sizeOf e, 1)
decreasing_by
  · exact .right _ (.left _ _ (by simp))
  · exact .right _ (.left _ _ l.2)
  · exact .right _ (.left _ _ r.2)
  · exact .right _ (.left _ _ (by simp; omega))
  · exact .right _ (.left _ _ (by simp +arith))
  · exact .right _ (.right _ (by decide))
  · exact .right _ (.left _ _ (by have := List.sizeOf_lt_of_mem ‹_ ∈ values›; simp; omega))
  · exact .right _ (.left _ _ (by simp))
  · exact .right _ (.right _ (by decide))
  · exact .right _ (.right _ (by decide))

def lowerNested (signatures : OrderedMap String Signature) (level : Nat) (scope : Scope) (e : Expr) :
    Except Fault (Option Draft) := do
  let calls ← e.innerCalls.attach.mapM fun ⟨s, _⟩ => lowerCall signatures level scope s
  return gather e.line calls
termination_by (level, sizeOf e, 0)
decreasing_by exact .right _ (.left _ _ (Expr.sizeOf_innerCalls e _ ‹_›))

/-- Lowers an argument; one that holds nothing to analyse stands for itself. -/
def lowerArgument (signatures : OrderedMap String Signature) (level : Nat) (scope : Scope) (e : Expr) :
    Except Fault Draft := do
  match ← lowerExpr signatures level scope e with
  | some d => return d
  | none => return .reference (some e.line) (← e.text) none
termination_by (level, sizeOf e, 2)
decreasing_by exact .right _ (.right _ (by decide))

/-- Lowers a call. A resolved one has its arguments in the order of the parameters, then the calls in
arguments that no parameter gets. -/
def lowerCall (signatures : OrderedMap String Signature) (level : Nat) (scope : Scope)
    (s : CallSite Expr) : Except Fault Draft := do
  let key := targetKey? signatures scope s.function
  let arguments ← match key.bind signatures.get? with
    | none => do
      let positional ← s.passed.mapM fun p => lowerArgument signatures level scope p.value.1
      let named ← s.named.mapM fun k => lowerArgument signatures level scope k.value.1
      pure (positional ++ named)
    | some signature => do
      let binding := Binding.make signature s.passed s.named
      let bound ← binding.slots.mapM fun
        | .value e => lowerArgument signatures level scope e.1
        | .unknown name => pure (unknownDraft name)
        | .default name => match level, signature.defaults.get? name with
          | level + 1, some e => lowerArgument signatures level {} e
          | _, _ => throw .endless
      let spare ← (binding.spare.flatMap spareCalls).mapM fun c => lowerCall signatures level scope c.1
      pure (bound ++ spare)
  return .call (some s.line) (some (calleeText s.function)) arguments key
termination_by (level, sizeOf s, 0)
decreasing_by
  · exact .right _ (.left _ _ p.value.2)
  · exact .right _ (.left _ _ k.value.2)
  · exact .right _ (.left _ _ e.2)
  · exact .left _ _ (Nat.lt_succ_self _)
  · exact .right _ (.left _ _ c.2)

end

def defaultLevels (signatures : OrderedMap String Signature) : Nat :=
  (signatures.values.map (·.defaults.size)).foldr (· + ·) 1

structure Program where
  signatures : OrderedMap String Signature

namespace Program

def expr (p : Program) (scope : Scope) (e : Expr) : Except Fault (Option Draft) :=
  lowerExpr p.signatures (defaultLevels p.signatures) scope e

def nested (p : Program) (scope : Scope) (line : Nat) (s : Stmt) : Except Fault (Option Draft) := do
  let calls ← s.innerCalls.mapM (lowerCall p.signatures (defaultLevels p.signatures) scope)
  return gather line calls

mutual

/-- Lowers a statement; `none` if it holds nothing to analyse. -/
def statement (p : Program) (scope : Scope) : Stmt → Except Fault (Option Draft)
  | .functionDef _ _ _ _ _ | .classDef _ _ _ _ => return none
  | .ifElse line test body orelse => do
    let condition ← p.expr scope test
    let thenBlock ← statements p scope body
    let elseBlock ← statements p scope orelse
    return some (.branch (some line) condition (some (.block none thenBlock))
      (if orelse.isEmpty then none else some (.block none elseBlock)))
  | .forLoop line _ source body orelse => do
    let head ← p.expr scope source
    let inside ← statements p scope body
    let after ← statements p scope orelse
    return some (.block (some line) (head.toList ++ inside ++ after))
  | .whileLoop line test body orelse => do
    let head ← p.expr scope test
    let inside ← statements p scope body
    let after ← statements p scope orelse
    return some (.block (some line) (head.toList ++ inside ++ after))
  | .withBlock line items body => do
    let heads ← items.mapM fun i => p.expr scope i.context
    let inside ← statements p scope body
    return some (.block (some line) (heads.filterMap (fun d => d) ++ inside))
  | .tryBlock line body _ orelse final => do
    let inside ← statements p scope body
    let after ← statements p scope orelse
    let last ← statements p scope final
    return some (.block (some line) (inside ++ after ++ last))
  | .ret line value => do
    let v ← match value with
      | some e => p.expr scope e
      | none => pure none
    return some (.ret (some line) v)
  | .expr _ value | .assign _ _ value | .augment _ _ _ value => p.expr scope value
  | .annotate _ _ _ value _ => match value with
    | some e => p.expr scope e
    | none => return none
  | .delete line targets => p.nested scope line (.delete line targets)
  | .matchCases line subject cases => p.nested scope line (.matchCases line subject cases)
  | .raise line exception cause => p.nested scope line (.raise line exception cause)
  | .tryGroup line body handlers orelse final =>
    p.nested scope line (.tryGroup line body handlers orelse final)
  | .assert line test message => p.nested scope line (.assert line test message)
  | .importNames _ _ | .declare _ _ | .pass _ | .breakLoop _ | .continueLoop _ => return none
termination_by structural s => s

def statements (p : Program) (scope : Scope) : List Stmt → Except Fault (List Draft)
  | [] => return []
  | s :: ss => do
    let d ← statement p scope s
    return d.toList ++ (← statements p scope ss)
termination_by structural ss => ss

end

/-- A statement without a body of its own, whose names are bound only once it is done. -/
def isStraight : Stmt → Bool
  | .expr _ _ | .assign _ _ _ | .augment _ _ _ _ | .annotate _ _ _ _ _ | .ret _ _ => true
  | _ => false

def constantAssignment? : Stmt → Option (String × Constant)
  | .assign _ [.name _ id _] (.constant _ v spelling) => some (id, ⟨v, spelling.place⟩)
  | .annotate _ (.name _ id _) _ (some (.constant _ v spelling)) _ => some (id, ⟨v, spelling.place⟩)
  | _ => none

/-- Lowers a function body. A name bound inside a compound statement is unknown from the start of that
statement on. -/
def body (p : Program) (scope : Scope) : List Stmt → Except Fault (List Draft)
  | [] => return []
  | s :: ss => do
    let bound := s.boundNames
    let d ← p.statement (if isStraight s then scope else scope.forget bound) s
    let after := scope.forget bound
    let after := match constantAssignment? s with
      | some (id, c) => { after with constants := after.constants.insert id c }
      | none => after
    return d.toList ++ (← body p after ss)

def function (p : Program) (module : String) (s : Signature) : Except Fault Draft := do
  let scope : Scope := {
    className := s.className
    parameters := s.parameters
    rebound := s.body.flatMap Stmt.boundNames }
  let statements ← p.body scope s.body
  let parameters := s.parameters.mapIdx fun i name => Draft.reference none name (some i)
  return .function (some s.line) s.name (module ++ "." ++ s.key) parameters (.block none statements)
    (some s.key)

end Program

def lowerModule (module : String) (statements : List Stmt) : Except Fault (List Draft) :=
  let signatures := Signature.collect statements
  signatures.values.mapM (Program.function ⟨signatures⟩ module)

def load (module source : String) : Except Fault (List Draft) := do
  let cs := source.toList
  if cs.contains (Char.ofNat 0) then throw .wrongValue
  match readModule? cs with
  | some statements => lowerModule module statements
  | none => throw .malformed

end CallTime.Source

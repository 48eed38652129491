import CallTime.Proofs.Passing
import CallTime.Proofs.Scoping

/-!
How a function body runs.

A run lists the expressions that are evaluated, each with the local variables at that moment. At any
point an exception may be raised, or the run is watched no further, so that each moment of a run without
end belongs to a run here. Expressions neither bind names nor have scopes of their own, and what they
yield is left open unless they are constants. Main statement: a run changes only variables that the
code binds.
-/

namespace CallTime.Source

abbrev Locals (V : Type) : Type := String → Option V

/-- Why a run goes no further: an exception, or it is watched only up to here. -/
inductive Halt where
  | raised | cut
  deriving DecidableEq

inductive Finish where
  | normal | broke | continued | returned
  | halted (cause : Halt)
  deriving DecidableEq

def Finish.andThen : Finish → Finish → Finish
  | .normal, next => next
  | first, _ => first

/-- An expression that is evaluated, with the variables at that moment. -/
structure Look (V : Type) where
  /-- It is a place that something is stored in. -/
  isTarget : Bool
  expr : Expr
  locals : Locals V

namespace Expr

/-- It binds no names and has no scopes of its own inside. -/
inductive Flat : Expr → Prop
  | of_children {e : Expr} (hn : ∀ line target value, e ≠ .named line target value)
    (hl : e.isLambda = false) (hc : e.isComprehension = false) (h : ∀ c ∈ e.children, Flat c) : Flat e

def isPlace : Expr → Bool
  | .attribute _ _ _ | .subscript _ _ _ => true
  | _ => false

def items? : Expr → Option (List Expr)
  | .tuple _ items | .list _ items => some items
  | .starred _ item => some [item]
  | _ => none

end Expr

section Semantics

variable {V : Type} (obj : Value → V) (className : Option String)

/-- What an expression can yield, without any effect on the variables. -/
inductive LeadsTo : Expr → V → Prop
  | constant {line : Nat} {v : Value} {spelling : Spelling} :
    LeadsTo (.constant line v spelling) (obj v)
  | other {e : Expr} (hf : e.Flat) (hc : ∀ line v spelling, e ≠ .constant line v spelling) (v : V) :
    LeadsTo e v

/-- Expressions are evaluated one after the other, the marked ones as targets. An exception in one of them
is one before the next. -/
inductive Computes : List (Bool × Expr) → Locals V → List (Look V) → Finish → Prop
  | nil {ρ : Locals V} : Computes [] ρ [] .normal
  | next {b : Bool} {e : Expr} {es : List (Bool × Expr)} {ρ : Locals V} {v : V} {tr : List (Look V)}
    {o : Finish} (he : LeadsTo obj e v) (hes : Computes es ρ tr o) :
    Computes ((b, e) :: es) ρ (⟨b, e, ρ⟩ :: tr) o
  | halt {es : List (Bool × Expr)} {ρ : Locals V} (cause : Halt) : Computes es ρ [] (.halted cause)

/-- Targets get these values one after the other, or are deleted. A value may be one that cannot be taken
apart, a variable may have no value to delete. -/
inductive Updates : List (Expr × Option V) → Locals V → List (Look V) → Finish → Locals V → Prop
  | nil {ρ : Locals V} : Updates [] ρ [] .normal ρ
  | name {line : Nat} {x : String} {use : NameUse} {w : Option V} {ts : List (Expr × Option V)}
    {ρ ρ' : Locals V} {tr : List (Look V)} {o : Finish} (hu : use ≠ .load)
    (h : Updates ts (Function.update ρ (privateName className x) w) tr o ρ') :
    Updates ((.name line x use, w) :: ts) ρ tr o ρ'
  | place {t : Expr} {w : Option V} {ts : List (Expr × Option V)} {ρ ρ' : Locals V}
    {tr : List (Look V)} {o : Finish} (ht : t.isPlace = true) (hf : t.Flat) (h : Updates ts ρ tr o ρ') :
    Updates ((t, w) :: ts) ρ (⟨true, t, ρ⟩ :: tr) o ρ'
  | apart {t : Expr} {w : Option V} {items : List (Expr × Option V)} {ts : List (Expr × Option V)}
    {ρ ρ' : Locals V} {tr : List (Look V)} {o : Finish} (ht : t.items? = some (items.map Prod.fst))
    (hw : ∀ i ∈ items, i.2.isSome = w.isSome) (h : Updates (items ++ ts) ρ tr o ρ') :
    Updates ((t, w) :: ts) ρ tr o ρ'
  | halt {ts : List (Expr × Option V)} {ρ : Locals V} (cause : Halt) : Updates ts ρ [] (.halted cause) ρ

inductive Code where
  | block (ss : List Stmt)
  | statement (s : Stmt)
  /-- The rounds of a loop that evaluates these expressions and assigns to these targets each time. -/
  | rounds (tests : List Expr) (targets : List Expr) (body orelse : List Stmt)
  | entering (items : List WithItem) (body : List Stmt)
  /-- A body with its handlers, for exception groups or not. -/
  | guarded (group : Bool) (body : List Stmt) (handlers : List Handler) (orelse : List Stmt)
  /-- The handlers that are left for an exception. -/
  | handling (group : Bool) (handlers : List Handler)
  | tried (group : Bool) (body : List Stmt) (handlers : List Handler) (orelse final : List Stmt)

/-- What a statement evaluates before all else. -/
def Stmt.first : Stmt → List (Bool × Expr)
  | .expr _ value | .assign _ _ value | .annotate _ _ _ (some value) _ => [(false, value)]
  | .annotate _ target _ none _ => if target.isPlace then [(true, target)] else []
  | .augment _ target _ value => [(true, target), (false, value)]
  | .ret _ value => value.toList.map (false, ·)
  | .raise _ exception cause => (exception.toList ++ cause.toList).map (false, ·)
  | .assert _ test _ | .ifElse _ test _ _ => [(false, test)]
  | .forLoop _ _ source _ _ => [(false, source)]
  | _ => []

/-- The ways to leave a `with` block whose body ends like this: an exception may be swallowed, and leaving
may raise another. -/
inductive Exits : Finish → Finish → Prop
  | same (o : Finish) : Exits o o
  | swallowed : Exits (.halted .raised) .normal
  | halted {o : Finish} (ho : o ≠ .halted .cut) (cause : Halt) : Exits o (.halted cause)

def Locals.named (ρ : Locals V) (name : Option String) (w : Option V) : Locals V :=
  name.elim ρ fun x => Function.update ρ (privateName className x) w

/-- A run from some variables: what is evaluated, how it ends, and the variables then. -/
inductive Runs : Code → Locals V → List (Look V) → Finish → Locals V → Prop
  | nil {ρ : Locals V} : Runs (.block []) ρ [] .normal ρ
  | cons {s : Stmt} {ss : List Stmt} {ρ ρ₁ ρ₂ : Locals V} {tr tr' : List (Look V)} {o : Finish}
    (hs : Runs (.statement s) ρ tr .normal ρ₁) (hss : Runs (.block ss) ρ₁ tr' o ρ₂) :
    Runs (.block (s :: ss)) ρ (tr ++ tr') o ρ₂
  | leave {s : Stmt} {ss : List Stmt} {ρ ρ₁ : Locals V} {tr : List (Look V)} {o : Finish}
    (hs : Runs (.statement s) ρ tr o ρ₁) (ho : o ≠ .normal) : Runs (.block (s :: ss)) ρ tr o ρ₁
  | halt {s : Stmt} {ρ : Locals V} {tr : List (Look V)} {cause : Halt}
    (h : Computes obj s.first ρ tr (.halted cause)) : Runs (.statement s) ρ tr (.halted cause) ρ
  -- Simple statements.
  | expr {line : Nat} {value : Expr} {ρ : Locals V} {tr : List (Look V)}
    (h : Computes obj [(false, value)] ρ tr .normal) : Runs (.statement (.expr line value)) ρ tr .normal ρ
  | ret {line : Nat} {value : Option Expr} {ρ : Locals V} {tr : List (Look V)}
    (h : Computes obj (value.toList.map (false, ·)) ρ tr .normal) :
    Runs (.statement (.ret line value)) ρ tr .returned ρ
  | raise {line : Nat} {exception cause : Option Expr} {ρ : Locals V} {tr : List (Look V)}
    (h : Computes obj ((exception.toList ++ cause.toList).map (false, ·)) ρ tr .normal) :
    Runs (.statement (.raise line exception cause)) ρ tr (.halted .raised) ρ
  | assert {line : Nat} {test : Expr} {message : Option Expr} {ρ : Locals V} {tr : List (Look V)}
    (h : Computes obj [(false, test)] ρ tr .normal) :
    Runs (.statement (.assert line test message)) ρ tr .normal ρ
  | assertHalt {line : Nat} {test : Expr} {message : Option Expr} {ρ : Locals V} {tr : List (Look V)}
    {o : Finish} (h : Computes obj ((test :: message.toList).map (false, ·)) ρ tr o) :
    Runs (.statement (.assert line test message)) ρ tr (o.andThen (.halted .raised)) ρ
  | pass {line : Nat} {ρ : Locals V} : Runs (.statement (.pass line)) ρ [] .normal ρ
  | breakLoop {line : Nat} {ρ : Locals V} : Runs (.statement (.breakLoop line)) ρ [] .broke ρ
  | continueLoop {line : Nat} {ρ : Locals V} : Runs (.statement (.continueLoop line)) ρ [] .continued ρ
  | assign {line : Nat} {targets : List Expr} {value : Expr} {v : V} {ρ ρ' : Locals V}
    {tr : List (Look V)} {o : Finish} (hv : LeadsTo obj value v)
    (ht : Updates className (targets.map (·, some v)) ρ tr o ρ') :
    Runs (.statement (.assign line targets value)) ρ (⟨false, value, ρ⟩ :: tr) o ρ'
  /-- The hint for a variable is not evaluated. -/
  | annotate {line : Nat} {target typeHint value : Expr} {inParentheses : Bool} {v : V} {ρ ρ' : Locals V}
    {tr : List (Look V)} {o : Finish} (hv : LeadsTo obj value v)
    (ht : Updates className [(target, some v)] ρ tr o ρ') :
    Runs (.statement (.annotate line target typeHint (some value) inParentheses)) ρ
      (⟨false, value, ρ⟩ :: tr) o ρ'
  | hint {line : Nat} {target typeHint : Expr} {inParentheses : Bool} {ρ : Locals V}
    {tr : List (Look V)} (h : Computes obj (if target.isPlace then [(true, target)] else []) ρ tr .normal) :
    Runs (.statement (.annotate line target typeHint none inParentheses)) ρ tr .normal ρ
  | augment {line : Nat} {target value : Expr} {operator : BinaryOperator} {w : V} {ρ ρ' : Locals V}
    {tr tr' : List (Look V)} {o : Finish}
    (h : Computes obj [(true, target), (false, value)] ρ tr .normal)
    (ht : Updates className [(target, some w)] ρ tr' o ρ') :
    Runs (.statement (.augment line target operator value)) ρ (tr ++ tr') o ρ'
  | delete {line : Nat} {targets : List Expr} {ρ ρ' : Locals V} {tr : List (Look V)} {o : Finish}
    (ht : Updates className (targets.map (·, none)) ρ tr o ρ') :
    Runs (.statement (.delete line targets)) ρ tr o ρ'
  | imported {line : Nat} {ρ : Locals V} : Runs (.statement (.importNames line [])) ρ [] .normal ρ
  | import {line : Nat} {a : Alias} {names : List Alias} {v : V} {ρ ρ' : Locals V} {tr : List (Look V)}
    {o : Finish} (h : Runs (.statement (.importNames line names))
      (Function.update ρ (privateName className a.bound) (some v)) tr o ρ') :
    Runs (.statement (.importNames line (a :: names))) ρ tr o ρ'
  -- Branches and loops.
  | ifElse {line : Nat} {test : Expr} {body orelse branch : List Stmt} {ρ ρ' : Locals V}
    {tr tr' : List (Look V)} {o : Finish} (h : Computes obj [(false, test)] ρ tr .normal)
    (hb : branch = body ∨ branch = orelse) (hr : Runs (.block branch) ρ tr' o ρ') :
    Runs (.statement (.ifElse line test body orelse)) ρ (tr ++ tr') o ρ'
  | whileLoop {line : Nat} {test : Expr} {body orelse : List Stmt} {ρ ρ' : Locals V}
    {tr : List (Look V)} {o : Finish} (h : Runs (.rounds [test] [] body orelse) ρ tr o ρ') :
    Runs (.statement (.whileLoop line test body orelse)) ρ tr o ρ'
  | forLoop {line : Nat} {target source : Expr} {body orelse : List Stmt} {ρ ρ' : Locals V}
    {tr tr' : List (Look V)} {o : Finish} (h : Computes obj [(false, source)] ρ tr .normal)
    (hr : Runs (.rounds [] [target] body orelse) ρ tr' o ρ') :
    Runs (.statement (.forLoop line target source body orelse)) ρ (tr ++ tr') o ρ'
  | roundHalt {tests targets : List Expr} {body orelse : List Stmt} {ρ : Locals V}
    {tr : List (Look V)} {cause : Halt} (h : Computes obj (tests.map (false, ·)) ρ tr (.halted cause)) :
    Runs (.rounds tests targets body orelse) ρ tr (.halted cause) ρ
  | roundsDone {tests targets : List Expr} {body orelse : List Stmt} {ρ ρ' : Locals V}
    {tr tr' : List (Look V)} {o : Finish} (h : Computes obj (tests.map (false, ·)) ρ tr .normal)
    (hr : Runs (.block orelse) ρ tr' o ρ') : Runs (.rounds tests targets body orelse) ρ (tr ++ tr') o ρ'
  | roundTargetHalt {tests targets : List Expr} {body orelse : List Stmt} {w : V} {ρ ρ' : Locals V}
    {tr tr' : List (Look V)} {cause : Halt} (h : Computes obj (tests.map (false, ·)) ρ tr .normal)
    (ht : Updates className (targets.map (·, some w)) ρ tr' (.halted cause) ρ') :
    Runs (.rounds tests targets body orelse) ρ (tr ++ tr') (.halted cause) ρ'
  | roundBroke {tests targets : List Expr} {body orelse : List Stmt} {w : V} {ρ ρ₁ ρ₂ : Locals V}
    {tr tr' tr'' : List (Look V)} (h : Computes obj (tests.map (false, ·)) ρ tr .normal)
    (ht : Updates className (targets.map (·, some w)) ρ tr' .normal ρ₁)
    (hb : Runs (.block body) ρ₁ tr'' .broke ρ₂) :
    Runs (.rounds tests targets body orelse) ρ (tr ++ tr' ++ tr'') .normal ρ₂
  | roundLeft {tests targets : List Expr} {body orelse : List Stmt} {w : V} {ρ ρ₁ ρ₂ : Locals V}
    {tr tr' tr'' : List (Look V)} {o : Finish} (h : Computes obj (tests.map (false, ·)) ρ tr .normal)
    (ht : Updates className (targets.map (·, some w)) ρ tr' .normal ρ₁)
    (hb : Runs (.block body) ρ₁ tr'' o ρ₂) (ho : o = .returned ∨ ∃ cause, o = .halted cause) :
    Runs (.rounds tests targets body orelse) ρ (tr ++ tr' ++ tr'') o ρ₂
  | round {tests targets : List Expr} {body orelse : List Stmt} {w : V} {ρ ρ₁ ρ₂ ρ₃ : Locals V}
    {tr tr' tr'' tr₃ : List (Look V)} {o o' : Finish}
    (h : Computes obj (tests.map (false, ·)) ρ tr .normal)
    (ht : Updates className (targets.map (·, some w)) ρ tr' .normal ρ₁)
    (hb : Runs (.block body) ρ₁ tr'' o ρ₂) (ho : o = .normal ∨ o = .continued)
    (hr : Runs (.rounds tests targets body orelse) ρ₂ tr₃ o' ρ₃) :
    Runs (.rounds tests targets body orelse) ρ (tr ++ tr' ++ tr'' ++ tr₃) o' ρ₃
  -- Blocks with managers.
  | withBlock {line : Nat} {items : List WithItem} {body : List Stmt} {ρ ρ' : Locals V}
    {tr : List (Look V)} {o : Finish} (h : Runs (.entering items body) ρ tr o ρ') :
    Runs (.statement (.withBlock line items body)) ρ tr o ρ'
  | entered {body : List Stmt} {ρ ρ' : Locals V} {tr : List (Look V)} {o : Finish}
    (h : Runs (.block body) ρ tr o ρ') : Runs (.entering [] body) ρ tr o ρ'
  | enterHalt {i : WithItem} {items : List WithItem} {body : List Stmt} {ρ : Locals V}
    {tr : List (Look V)} {cause : Halt} (h : Computes obj [(false, i.context)] ρ tr (.halted cause)) :
    Runs (.entering (i :: items) body) ρ tr (.halted cause) ρ
  | enterTargetHalt {i : WithItem} {items : List WithItem} {body : List Stmt} {w : V} {ρ ρ' : Locals V}
    {tr tr' : List (Look V)} {cause : Halt} {o : Finish}
    (h : Computes obj [(false, i.context)] ρ tr .normal)
    (ht : Updates className (i.target.toList.map (·, some w)) ρ tr' (.halted cause) ρ')
    (ho : Exits (.halted cause) o) : Runs (.entering (i :: items) body) ρ (tr ++ tr') o ρ'
  | enter {i : WithItem} {items : List WithItem} {body : List Stmt} {w : V} {ρ ρ₁ ρ₂ : Locals V}
    {tr tr' tr'' : List (Look V)} {o o' : Finish} (h : Computes obj [(false, i.context)] ρ tr .normal)
    (ht : Updates className (i.target.toList.map (·, some w)) ρ tr' .normal ρ₁)
    (hr : Runs (.entering items body) ρ₁ tr'' o ρ₂) (ho : Exits o o') :
    Runs (.entering (i :: items) body) ρ (tr ++ tr' ++ tr'') o' ρ₂
  -- Blocks with handlers.
  | tryBlock {line : Nat} {body : List Stmt} {handlers : List Handler} {orelse final : List Stmt}
    {ρ ρ' : Locals V} {tr : List (Look V)} {o : Finish}
    (h : Runs (.tried false body handlers orelse final) ρ tr o ρ') :
    Runs (.statement (.tryBlock line body handlers orelse final)) ρ tr o ρ'
  | tryGroup {line : Nat} {body : List Stmt} {handlers : List Handler} {orelse final : List Stmt}
    {ρ ρ' : Locals V} {tr : List (Look V)} {o : Finish}
    (h : Runs (.tried true body handlers orelse final) ρ tr o ρ') :
    Runs (.statement (.tryGroup line body handlers orelse final)) ρ tr o ρ'
  | triedCut {group : Bool} {body : List Stmt} {handlers : List Handler} {orelse final : List Stmt}
    {ρ ρ' : Locals V} {tr : List (Look V)}
    (h : Runs (.guarded group body handlers orelse) ρ tr (.halted .cut) ρ') :
    Runs (.tried group body handlers orelse final) ρ tr (.halted .cut) ρ'
  | tried {group : Bool} {body : List Stmt} {handlers : List Handler} {orelse final : List Stmt}
    {ρ ρ₁ ρ₂ : Locals V} {tr tr' : List (Look V)} {o o' : Finish}
    (h : Runs (.guarded group body handlers orelse) ρ tr o ρ₁) (ho : o ≠ .halted .cut)
    (hf : Runs (.block final) ρ₁ tr' o' ρ₂) :
    Runs (.tried group body handlers orelse final) ρ (tr ++ tr') (o'.andThen o) ρ₂
  | quiet {group : Bool} {body : List Stmt} {handlers : List Handler} {orelse : List Stmt}
    {ρ ρ₁ ρ₂ : Locals V} {tr tr' : List (Look V)} {o : Finish}
    (h : Runs (.block body) ρ tr .normal ρ₁) (hr : Runs (.block orelse) ρ₁ tr' o ρ₂) :
    Runs (.guarded group body handlers orelse) ρ (tr ++ tr') o ρ₂
  | caught {group : Bool} {body : List Stmt} {handlers : List Handler} {orelse : List Stmt}
    {ρ ρ₁ ρ₂ : Locals V} {tr tr' : List (Look V)} {o : Finish}
    (h : Runs (.block body) ρ tr (.halted .raised) ρ₁) (hr : Runs (.handling group handlers) ρ₁ tr' o ρ₂) :
    Runs (.guarded group body handlers orelse) ρ (tr ++ tr') o ρ₂
  | through {group : Bool} {body : List Stmt} {handlers : List Handler} {orelse : List Stmt}
    {ρ ρ' : Locals V} {tr : List (Look V)} {o : Finish} (h : Runs (.block body) ρ tr o ρ')
    (hn : o ≠ .normal) (hr : o ≠ .halted .raised) : Runs (.guarded group body handlers orelse) ρ tr o ρ'
  | unhandled {group : Bool} {ρ : Locals V} : Runs (.handling group []) ρ [] (.halted .raised) ρ
  | handled {ρ : Locals V} : Runs (.handling true []) ρ [] .normal ρ
  | typeHalt {group : Bool} {h : Handler} {handlers : List Handler} {ρ : Locals V} {tr : List (Look V)}
    {cause : Halt} (ht : Computes obj (h.type.toList.map (false, ·)) ρ tr (.halted cause)) :
    Runs (.handling group (h :: handlers)) ρ tr (.halted cause) ρ
  | skip {group : Bool} {h : Handler} {handlers : List Handler} {ρ ρ' : Locals V}
    {tr tr' : List (Look V)} {o : Finish} (ht : Computes obj (h.type.toList.map (false, ·)) ρ tr .normal)
    (hr : Runs (.handling group handlers) ρ tr' o ρ') :
    Runs (.handling group (h :: handlers)) ρ (tr ++ tr') o ρ'
  /-- The name of the exception goes with the end of the handler. -/
  | take {group : Bool} {h : Handler} {handlers : List Handler} {v : V} {ρ ρ' : Locals V}
    {tr tr' : List (Look V)} {o : Finish} (ht : Computes obj (h.type.toList.map (false, ·)) ρ tr .normal)
    (hb : Runs (.block h.body) (ρ.named className h.name (some v)) tr' o ρ') :
    Runs (.handling group (h :: handlers)) ρ (tr ++ tr') o (ρ'.named className h.name none)
  /-- The next handlers get what is left of a group. -/
  | takePart {h : Handler} {handlers : List Handler} {v : V} {ρ ρ₁ ρ₂ : Locals V}
    {tr tr' tr'' : List (Look V)} {o o' : Finish}
    (ht : Computes obj (h.type.toList.map (false, ·)) ρ tr .normal)
    (hb : Runs (.block h.body) (ρ.named className h.name (some v)) tr' o ρ₁)
    (ho : o = .normal ∨ o = .halted .raised)
    (hr : Runs (.handling true handlers) (ρ₁.named className h.name none) tr'' o' ρ₂) :
    Runs (.handling true (h :: handlers)) ρ (tr ++ tr' ++ tr'') o' ρ₂

end Semantics

/-- The names that the code binds. -/
def Code.boundNames : Code → List String
  | .block ss => ss.flatMap Stmt.boundNames
  | .statement s => s.boundNames
  | .rounds _ targets body orelse => targets.flatMap Expr.boundNames ++ body.flatMap Stmt.boundNames ++
    orelse.flatMap Stmt.boundNames
  | .entering items body =>
    (items.flatMap (·.target.toList)).flatMap Expr.boundNames ++ body.flatMap Stmt.boundNames
  | .guarded _ body handlers orelse => body.flatMap Stmt.boundNames ++ Stmt.boundNamesHandlers handlers ++
    orelse.flatMap Stmt.boundNames
  | .handling _ handlers => Stmt.boundNamesHandlers handlers
  | .tried _ body handlers orelse final => body.flatMap Stmt.boundNames ++
    Stmt.boundNamesHandlers handlers ++ orelse.flatMap Stmt.boundNames ++ final.flatMap Stmt.boundNames

def Code.stored (className : Option String) (c : Code) : List String :=
  c.boundNames.map (privateName className)

/-- At the end and whenever something is evaluated, only variables with these names have changed. -/
structure Confined {V : Type} (names : List String) (ρ : Locals V) (tr : List (Look V)) (ρ' : Locals V) :
    Prop where
  locals : ∀ x ∉ names, ρ' x = ρ x
  looks : ∀ l ∈ tr, ∀ x ∉ names, l.locals x = ρ x

section Frame

variable {V : Type} {obj : Value → V} {className : Option String} {names names' : List String}
  {ρ ρ' ρ₁ ρ₂ : Locals V} {tr tr' : List (Look V)} {o : Finish}

theorem Confined.refl (h : ∀ l ∈ tr, l.locals = ρ) : Confined names ρ tr ρ :=
  ⟨fun _ _ => rfl, fun l hl x _ => congrFun (h l hl) x⟩

theorem Confined.trans (h : Confined names ρ tr ρ₁) (h' : Confined names ρ₁ tr' ρ₂) :
    Confined names ρ (tr ++ tr') ρ₂ := by
  refine ⟨fun x hx => (h'.locals x hx).trans (h.locals x hx), fun l hl x hx => ?_⟩
  obtain hl | hl := List.mem_append.mp hl
  · exact h.looks l hl x hx
  · exact (h'.looks l hl x hx).trans (h.locals x hx)

theorem Confined.mono (h : Confined names ρ tr ρ') (hn : names ⊆ names') : Confined names' ρ tr ρ' :=
  ⟨fun x hx => h.locals x fun hm => hx (hn hm), fun l hl x hx => h.looks l hl x fun hm => hx (hn hm)⟩

theorem Confined.cons {l : Look V} (hl : l.locals = ρ) (h : Confined names ρ tr ρ') :
    Confined names ρ (l :: tr) ρ' :=
  (Confined.refl (List.forall_mem_singleton.mpr hl)).trans h

theorem update_of_notMem {x y : String} (w : Option V) (hx : x ∈ names) (hy : y ∉ names) :
    Function.update ρ x w y = ρ y := by
  have hne : y ≠ x := fun he => hy (he ▸ hx)
  exact Function.update_of_ne hne _ _

theorem Confined.of_update {x : String} {w : Option V} (hx : x ∈ names)
    (h : Confined names (Function.update ρ x w) tr ρ') : Confined names ρ tr ρ' :=
  ⟨fun y hy => (h.locals y hy).trans (update_of_notMem w hx hy),
    fun l hl y hy => (h.looks l hl y hy).trans (update_of_notMem w hx hy)⟩

theorem Confined.update {x : String} {w : Option V} (hx : x ∈ names) (h : Confined names ρ tr ρ') :
    Confined names ρ tr (Function.update ρ' x w) :=
  ⟨fun y hy => (update_of_notMem w hx hy).trans (h.locals y hy), h.looks⟩

theorem Computes.locals_eq {es : List (Bool × Expr)} (h : Computes obj es ρ tr o) :
    ∀ l ∈ tr, l.locals = ρ := by
  induction h with
  | nil => exact List.forall_mem_nil _
  | next _ _ ih => exact List.forall_mem_cons.mpr ⟨rfl, ih⟩
  | halt _ => exact List.forall_mem_nil _

theorem Computes.confined {es : List (Bool × Expr)} (h : Computes obj es ρ tr o) : Confined names ρ tr ρ :=
  .refl h.locals_eq

theorem boundNames_items {t : Expr} {items : List Expr} (h : t.items? = some items) :
    t.boundNames = items.flatMap Expr.boundNames := by
  cases t with
  | tuple | list | starred =>
    cases h
    rw [Expr.boundNames.eq_def]
    simp [Expr.children]
  | _ => cases h

theorem Updates.confined {ts : List (Expr × Option V)} (h : Updates className ts ρ tr o ρ') :
    Confined ((ts.flatMap (·.1.boundNames)).map (privateName className)) ρ tr ρ' := by
  induction h with
  | nil => exact .refl (List.forall_mem_nil _)
  | @name line x use w ts ρ ρ' tr o hu h ih =>
    refine .of_update (List.mem_map_of_mem ?_) (ih.mono (List.map_subset _ ?_))
    · exact List.mem_append_left _ (Expr.mem_boundNames_iff.mpr (.inl ⟨line, use, rfl, hu⟩))
    · exact List.subset_append_right _ _
  | place ht hf h ih => exact .cons rfl (ih.mono (List.map_subset _ (List.subset_append_right _ _)))
  | apart ht hw h ih =>
    refine ih.mono (List.map_subset _ ?_)
    rw [List.flatMap_cons, boundNames_items ht, List.flatMap_append, List.flatMap_map]
    exact List.Subset.refl _
  | halt _ => exact .refl (List.forall_mem_nil _)

theorem Updates.isTarget {ts : List (Expr × Option V)} (h : Updates className ts ρ tr o ρ') :
    ∀ l ∈ tr, l.isTarget = true := by
  induction h with
  | nil | halt => exact List.forall_mem_nil _
  | name _ _ ih | apart _ _ _ ih => exact ih
  | place _ _ _ ih => exact List.forall_mem_cons.mpr ⟨rfl, ih⟩

theorem Confined.lift {xs ys : List String} (h : Confined (xs.map (privateName className)) ρ tr ρ')
    (hsub : xs ⊆ ys) : Confined (ys.map (privateName className)) ρ tr ρ' :=
  h.mono (List.map_subset _ hsub)

theorem Stmt.boundNamesList_eq (ss : List Stmt) : boundNamesList ss = ss.flatMap boundNames := by
  induction ss with
  | nil => rfl
  | cons s ss ih => rw [boundNamesList, ih, List.flatMap_cons]

theorem Stmt.boundNamesHandlers_cons (h : Handler) (hs : List Handler) : boundNamesHandlers (h :: hs) =
    h.type.toList.flatMap Expr.boundNames ++ h.name.toList ++ h.body.flatMap boundNames ++
      boundNamesHandlers hs := by
  obtain ⟨type, name, body⟩ := h
  rw [boundNamesHandlers, boundNamesHandler, boundNamesList_eq]
  rfl

theorem flatMap_pair_boundNames (ts : List Expr) (w : Option V) :
    (ts.map (·, w)).flatMap (fun t => t.1.boundNames) = ts.flatMap Expr.boundNames :=
  List.flatMap_map ..

theorem targets_subset_rounds {tests targets : List Expr} {body orelse : List Stmt} {w : Option V} :
    (targets.map (·, w)).flatMap (fun t => t.1.boundNames) ⊆
      (Code.rounds tests targets body orelse).boundNames := by
  rw [flatMap_pair_boundNames]
  simp [Code.boundNames]

theorem body_subset_rounds {tests targets : List Expr} {body orelse : List Stmt} :
    (Code.block body).boundNames ⊆ (Code.rounds tests targets body orelse).boundNames := by
  simp [Code.boundNames]

theorem target_subset_entering {i : WithItem} {items : List WithItem} {body : List Stmt} {w : Option V} :
    (i.target.toList.map (·, w)).flatMap (fun t => t.1.boundNames) ⊆
      (Code.entering (i :: items) body).boundNames := by
  rw [flatMap_pair_boundNames]
  simp [Code.boundNames]

theorem rest_subset_handling {group : Bool} {h : Handler} {handlers : List Handler} :
    (Code.handling group handlers).boundNames ⊆ (Code.handling group (h :: handlers)).boundNames := by
  rw [Code.boundNames, Code.boundNames, Stmt.boundNamesHandlers_cons]
  exact List.subset_append_right _ _

theorem confined_handler {group : Bool} {h : Handler} {handlers : List Handler} {w w' : Option V}
    (hb : Confined ((Code.block h.body).stored className) (ρ.named className h.name w) tr ρ') :
    Confined ((Code.handling group (h :: handlers)).stored className) ρ tr
      (ρ'.named className h.name w') := by
  have hbody : (Code.block h.body).boundNames ⊆ (Code.handling group (h :: handlers)).boundNames := by
    rw [Code.boundNames, Code.boundNames, Stmt.boundNamesHandlers_cons]
    exact List.Subset.trans (List.subset_append_right _ _) (List.subset_append_left _ _)
  replace hb := hb.lift hbody
  cases hn : h.name with
  | none =>
    rw [hn] at hb
    exact hb
  | some x =>
    have hx : x ∈ (Code.handling group (h :: handlers)).boundNames := by
      simp [Code.boundNames, Stmt.boundNamesHandlers_cons, hn]
    rw [hn] at hb
    exact (Confined.of_update (List.mem_map_of_mem hx) hb).update (List.mem_map_of_mem hx)

/-- A run changes only variables that the code binds. -/
theorem Runs.confined {c : Code} (h : Runs obj className c ρ tr o ρ') :
    Confined (c.stored className) ρ tr ρ' := by
  induction h with
  | nil | pass | breakLoop | continueLoop | imported | unhandled | handled =>
    exact .refl (List.forall_mem_nil _)
  | halt h | expr h | ret h | raise h | assert h | assertHalt h | hint h | roundHalt h | enterHalt h
  | typeHalt h => exact h.confined
  | cons _ _ ih ih' =>
    exact (ih.lift (List.subset_append_left _ _)).trans (ih'.lift (List.subset_append_right _ _))
  | leave _ _ ih => exact ih.lift (List.subset_append_left _ _)
  | assign _ ht =>
    refine .cons rfl (ht.confined.lift ?_)
    rw [flatMap_pair_boundNames]
    exact List.subset_append_left _ _
  | annotate _ ht =>
    refine .cons rfl (ht.confined.lift ?_)
    simp [Code.boundNames, Stmt.boundNames]
  | augment h ht =>
    refine h.confined.trans (ht.confined.lift ?_)
    simp [Code.boundNames, Stmt.boundNames]
  | delete ht =>
    refine ht.confined.lift ?_
    rw [flatMap_pair_boundNames]
    exact List.Subset.refl _
  | «import» _ ih =>
    refine .of_update (List.mem_map_of_mem List.mem_cons_self) (ih.lift ?_)
    exact List.subset_cons_self _ _
  | ifElse h hb _ ih =>
    refine h.confined.trans (ih.lift ?_)
    obtain rfl | rfl := hb <;> simp [Code.boundNames, Stmt.boundNames, Stmt.boundNamesList_eq]
  | whileLoop _ ih =>
    refine ih.lift ?_
    simp [Code.boundNames, Stmt.boundNames, Stmt.boundNamesList_eq]
  | forLoop h _ ih =>
    refine h.confined.trans (ih.lift ?_)
    simp [Code.boundNames, Stmt.boundNames, Stmt.boundNamesList_eq]
  | roundsDone h _ ih => exact h.confined.trans (ih.lift (List.subset_append_right _ _))
  | roundTargetHalt h ht => exact h.confined.trans (ht.confined.lift targets_subset_rounds)
  | roundBroke h ht _ ih | roundLeft h ht _ _ ih =>
    exact (h.confined.trans (ht.confined.lift targets_subset_rounds)).trans (ih.lift body_subset_rounds)
  | round h ht _ _ _ ih ih' =>
    exact ((h.confined.trans (ht.confined.lift targets_subset_rounds)).trans
      (ih.lift body_subset_rounds)).trans ih'
  | withBlock _ ih =>
    refine ih.lift fun x hx => ?_
    simp only [Code.boundNames, Stmt.boundNames, Stmt.boundNamesList_eq, List.mem_append,
      List.mem_flatMap] at hx ⊢
    refine hx.imp_left ?_
    rintro ⟨t, ⟨i, hi, ht⟩, hx⟩
    exact ⟨t, ⟨i, hi, List.mem_cons_of_mem _ ht⟩, hx⟩
  | entered _ ih => exact ih
  | enterTargetHalt h ht _ => exact h.confined.trans (ht.confined.lift target_subset_entering)
  | enter h ht _ _ ih =>
    refine (h.confined.trans (ht.confined.lift target_subset_entering)).trans (ih.lift ?_)
    simp [Code.boundNames]
  | tryBlock _ ih | tryGroup _ ih =>
    refine ih.lift ?_
    simp [Code.boundNames, Stmt.boundNames, Stmt.boundNamesList_eq]
  | triedCut _ ih => exact ih.lift (List.subset_append_left _ _)
  | tried _ _ _ ih ih' =>
    exact (ih.lift (List.subset_append_left _ _)).trans (ih'.lift (List.subset_append_right _ _))
  | quiet _ _ ih ih' =>
    refine (ih.lift ?_).trans (ih'.lift (List.subset_append_right _ _))
    simp [Code.boundNames]
  | caught _ _ ih ih' =>
    refine (ih.lift ?_).trans (ih'.lift ?_) <;> simp [Code.boundNames]
  | through _ _ _ ih =>
    refine ih.lift ?_
    simp [Code.boundNames]
  | skip ht _ ih => exact ht.confined.trans (ih.lift rest_subset_handling)
  | take ht _ ih => exact ht.confined.trans (confined_handler ih)
  | takePart ht _ _ _ ih ih' =>
    exact (ht.confined.trans (confined_handler ih)).trans (ih'.lift rest_subset_handling)

/-- What a statement without a body evaluates for its value, it evaluates before it binds anything. -/
theorem Runs.locals_eq_of_straight {s : Stmt} (h : Runs obj className (.statement s) ρ tr o ρ')
    (hs : Program.isStraight s = true) : ∀ l ∈ tr, l.isTarget = false → l.locals = ρ := by
  cases h with
  | halt h | expr h | ret h | hint h => exact fun l hl _ => h.locals_eq l hl
  | assign _ ht | annotate _ ht =>
    intro l hl hv
    obtain rfl | hl := List.mem_cons.mp hl
    · rfl
    · exact absurd (ht.isTarget l hl) (by simp [hv])
  | augment h ht =>
    intro l hl hv
    obtain hl | hl := List.mem_append.mp hl
    · exact h.locals_eq l hl
    · exact absurd (ht.isTarget l hl) (by simp [hv])
  | _ => cases hs

theorem updates_name {line : Nat} {x : String} {use : NameUse} {w : Option V}
    (h : Updates className [(.name line x use, w)] ρ tr .normal ρ') :
    x ∈ (Expr.name line x use).boundNames ∧ ρ' = Function.update ρ (privateName className x) w := by
  cases h with
  | name hu h =>
    cases h
    exact ⟨Expr.mem_boundNames_iff.mpr (.inl ⟨line, use, rfl, hu⟩), rfl⟩
  | place ht _ _ => cases ht
  | apart ht _ _ => cases ht

theorem eq_of_leadsTo_constant {line : Nat} {v : Value} {spelling : Spelling} {w : V}
    (h : LeadsTo obj (.constant line v spelling) w) : w = obj v := by
  cases h with
  | constant => rfl
  | other _ hc _ => exact absurd rfl (hc line v spelling)

theorem Runs.eq_update_of_constant {s : Stmt} {x : String} {c : Constant}
    (h : Runs obj className (.statement s) ρ tr .normal ρ')
    (hs : Program.constantAssignment? s = some (x, c)) :
    x ∈ s.boundNames ∧ ρ' = Function.update ρ (privateName className x) (some (obj c.value)) := by
  unfold Program.constantAssignment? at hs
  split at hs
  · cases hs
    cases h with
    | assign hv ht =>
      obtain rfl := eq_of_leadsTo_constant hv
      obtain ⟨hx, rfl⟩ := updates_name ht
      exact ⟨List.mem_append_left _ (List.mem_append_left _ hx), rfl⟩
  · cases hs
    cases h with
    | annotate hv ht =>
      obtain rfl := eq_of_leadsTo_constant hv
      obtain ⟨hx, rfl⟩ := updates_name ht
      exact ⟨List.mem_append_left _ (List.mem_append_left _ hx), rfl⟩
  · cases hs

end Frame

end CallTime.Source

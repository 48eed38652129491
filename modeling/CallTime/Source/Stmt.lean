import CallTime.Source.Expr

/-!
Patterns and statements of Python: the calls inside them, and the names they bind.
-/

namespace CallTime.Source

inductive Pattern where
  | value (value : Expr)
  /-- One of the three named constants. -/
  | singleton (value : Value)
  | sequence (items : List Pattern)
  | mapping (keys : List Expr) (values : List Pattern) (rest : Option String)
  | record (class_ : Expr) (positional : List Pattern) (names : List String)
      (keyword : List Pattern)
  | star (name : Option String)
  /-- Matches what `pattern` matches, or anything, and binds it to `name`, if there is one. -/
  | capture (pattern : Option Pattern) (name : Option String)
  | alternatives (items : List Pattern)

namespace Pattern

mutual

def outerCalls : Pattern → List (CallSite Expr)
  | .value v => v.outerCalls
  | .singleton _ => []
  | .sequence items | .alternatives items => outerCallsList items
  | .mapping keys values _ => keys.flatMap Expr.outerCalls ++ outerCallsList values
  | .record c positional _ keyword =>
    c.outerCalls ++ outerCallsList positional ++ outerCallsList keyword
  | .star _ => []
  | .capture pattern _ => outerCallsOption pattern
termination_by structural p => p

def outerCallsList : List Pattern → List (CallSite Expr)
  | [] => []
  | p :: ps => p.outerCalls ++ outerCallsList ps
termination_by structural ps => ps

def outerCallsOption : Option Pattern → List (CallSite Expr)
  | none => []
  | some p => p.outerCalls
termination_by structural p => p

end

mutual

def boundNames : Pattern → List String
  | .value v => v.boundNames
  | .singleton _ => []
  | .sequence items | .alternatives items => boundNamesList items
  | .mapping keys values rest =>
    keys.flatMap Expr.boundNames ++ boundNamesList values ++ rest.toList
  | .record c positional _ keyword =>
    c.boundNames ++ boundNamesList positional ++ boundNamesList keyword
  | .star name => name.toList
  | .capture pattern name => boundNamesOption pattern ++ name.toList
termination_by structural p => p

def boundNamesList : List Pattern → List String
  | [] => []
  | p :: ps => p.boundNames ++ boundNamesList ps
termination_by structural ps => ps

def boundNamesOption : Option Pattern → List String
  | none => []
  | some p => p.boundNames
termination_by structural p => p

end

end Pattern

structure WithItem where
  context : Expr
  target : Option Expr

/-- What an import makes known: a dotted name, or another name for it. -/
structure Alias where
  name : String
  newName : Option String

def Alias.bound (a : Alias) : String :=
  String.ofList ((a.newName.getD a.name).toList.takeWhile (· ≠ '.'))

mutual

inductive Stmt where
  /-- `header` holds the decorators and the type hint of the result. -/
  | functionDef (line : Nat) (name : String) (parameters : Parameters Expr) (body : List Stmt)
      (header : List Expr := [])
  /-- `header` holds the decorators and the arguments after the name. -/
  | classDef (line : Nat) (name : String) (body : List Stmt) (header : List Expr := [])
  | ret (line : Nat) (value : Option Expr)
  | delete (line : Nat) (targets : List Expr)
  | assign (line : Nat) (targets : List Expr) (value : Expr)
  | augment (line : Nat) (target : Expr) (operator : BinaryOperator) (value : Expr)
  | annotate (line : Nat) (target typeHint : Expr) (value : Option Expr)
      (inParentheses : Bool := false)
  | forLoop (line : Nat) (target source : Expr) (body orelse : List Stmt)
  | whileLoop (line : Nat) (test : Expr) (body orelse : List Stmt)
  | ifElse (line : Nat) (test : Expr) (body orelse : List Stmt)
  | withBlock (line : Nat) (items : List WithItem) (body : List Stmt)
  | matchCases (line : Nat) (subject : Expr) (cases : List MatchCase)
  | raise (line : Nat) (exception cause : Option Expr)
  | tryBlock (line : Nat) (body : List Stmt) (handlers : List Handler) (orelse final : List Stmt)
  /-- A `try` whose handlers take exception groups. -/
  | tryGroup (line : Nat) (body : List Stmt) (handlers : List Handler) (orelse final : List Stmt)
  | assert (line : Nat) (test : Expr) (message : Option Expr)
  | importNames (line : Nat) (names : List Alias)
  /-- A `global` or `nonlocal` declaration. -/
  | declare (line : Nat) (names : List String)
  | expr (line : Nat) (value : Expr)
  | pass (line : Nat)
  | breakLoop (line : Nat)
  | continueLoop (line : Nat)

inductive Handler where
  | mk (type : Option Expr) (name : Option String) (body : List Stmt)

inductive MatchCase where
  | mk (pattern : Pattern) (guard : Option Expr) (body : List Stmt)

end

instance : Inhabited Stmt := ⟨.pass 0⟩

def WithItem.parts (i : WithItem) : List Expr := i.context :: i.target.toList

namespace Stmt

mutual

/-- The outermost calls inside a statement; definitions keep their calls to themselves. -/
def innerCalls : Stmt → List (CallSite Expr)
  | .functionDef _ _ _ _ _ | .classDef _ _ _ _ => []
  | .ret _ value => value.toList.flatMap Expr.outerCalls
  | .delete _ targets => targets.flatMap Expr.outerCalls
  | .assign _ targets value => targets.flatMap Expr.outerCalls ++ value.outerCalls
  | .augment _ target _ value => target.outerCalls ++ value.outerCalls
  | .annotate _ target typeHint value _ =>
    target.outerCalls ++ typeHint.outerCalls ++ value.toList.flatMap Expr.outerCalls
  | .forLoop _ target source body orelse =>
    target.outerCalls ++ source.outerCalls ++ innerCallsList body ++ innerCallsList orelse
  | .whileLoop _ test body orelse | .ifElse _ test body orelse =>
    test.outerCalls ++ innerCallsList body ++ innerCallsList orelse
  | .withBlock _ items body =>
    (items.flatMap WithItem.parts).flatMap Expr.outerCalls ++ innerCallsList body
  | .matchCases _ subject cases => subject.outerCalls ++ innerCallsCases cases
  | .raise _ exception cause =>
    exception.toList.flatMap Expr.outerCalls ++ cause.toList.flatMap Expr.outerCalls
  | .tryBlock _ body handlers orelse final | .tryGroup _ body handlers orelse final =>
    innerCallsList body ++ innerCallsHandlers handlers ++ innerCallsList orelse
      ++ innerCallsList final
  | .assert _ test message => test.outerCalls ++ message.toList.flatMap Expr.outerCalls
  | .expr _ value => value.outerCalls
  | .importNames _ _ | .declare _ _ | .pass _ | .breakLoop _ | .continueLoop _ => []
termination_by structural s => s

def innerCallsList : List Stmt → List (CallSite Expr)
  | [] => []
  | s :: ss => s.innerCalls ++ innerCallsList ss
termination_by structural ss => ss

def innerCallsHandlers : List Handler → List (CallSite Expr)
  | [] => []
  | h :: hs => innerCallsHandler h ++ innerCallsHandlers hs
termination_by structural hs => hs

def innerCallsHandler : Handler → List (CallSite Expr)
  | .mk type _ body => type.toList.flatMap Expr.outerCalls ++ innerCallsList body
termination_by structural h => h

def innerCallsCases : List MatchCase → List (CallSite Expr)
  | [] => []
  | c :: cs => innerCallsCase c ++ innerCallsCases cs
termination_by structural cs => cs

def innerCallsCase : MatchCase → List (CallSite Expr)
  | .mk pattern guard body =>
    pattern.outerCalls ++ guard.toList.flatMap Expr.outerCalls ++ innerCallsList body
termination_by structural c => c

end

mutual

def boundNames : Stmt → List String
  | .functionDef _ name _ _ _ | .classDef _ name _ _ => [name]
  | .ret _ value => value.toList.flatMap Expr.boundNames
  | .delete _ targets => targets.flatMap Expr.boundNames
  | .assign _ targets value => targets.flatMap Expr.boundNames ++ value.boundNames
  | .augment _ target _ value => target.boundNames ++ value.boundNames
  | .annotate _ target typeHint value _ =>
    target.boundNames ++ typeHint.boundNames ++ value.toList.flatMap Expr.boundNames
  | .forLoop _ target source body orelse =>
    target.boundNames ++ source.boundNames ++ boundNamesList body ++ boundNamesList orelse
  | .whileLoop _ test body orelse | .ifElse _ test body orelse =>
    test.boundNames ++ boundNamesList body ++ boundNamesList orelse
  | .withBlock _ items body =>
    (items.flatMap WithItem.parts).flatMap Expr.boundNames ++ boundNamesList body
  | .matchCases _ subject cases => subject.boundNames ++ boundNamesCases cases
  | .raise _ exception cause =>
    exception.toList.flatMap Expr.boundNames ++ cause.toList.flatMap Expr.boundNames
  | .tryBlock _ body handlers orelse final | .tryGroup _ body handlers orelse final =>
    boundNamesList body ++ boundNamesHandlers handlers ++ boundNamesList orelse
      ++ boundNamesList final
  | .assert _ test message => test.boundNames ++ message.toList.flatMap Expr.boundNames
  | .expr _ value => value.boundNames
  | .importNames _ names => names.map Alias.bound
  | .declare _ _ | .pass _ | .breakLoop _ | .continueLoop _ => []
termination_by structural s => s

def boundNamesList : List Stmt → List String
  | [] => []
  | s :: ss => s.boundNames ++ boundNamesList ss
termination_by structural ss => ss

def boundNamesHandlers : List Handler → List String
  | [] => []
  | h :: hs => boundNamesHandler h ++ boundNamesHandlers hs
termination_by structural hs => hs

def boundNamesHandler : Handler → List String
  | .mk type name body => type.toList.flatMap Expr.boundNames ++ name.toList ++ boundNamesList body
termination_by structural h => h

def boundNamesCases : List MatchCase → List String
  | [] => []
  | c :: cs => boundNamesCase c ++ boundNamesCases cs
termination_by structural cs => cs

def boundNamesCase : MatchCase → List String
  | .mk pattern guard body =>
    pattern.boundNames ++ guard.toList.flatMap Expr.boundNames ++ boundNamesList body
termination_by structural c => c

end

end Stmt

end CallTime.Source

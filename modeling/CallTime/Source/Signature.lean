import CallTime.OrderedMap
import CallTime.Source.Stmt

/-!
The signatures of the functions that calls can be resolved to: those of a module and of its classes.
-/

namespace CallTime.Source

structure Signature where
  /-- The name, after the name of the class for a method. -/
  key : String
  name : String
  className : Option String
  line : Nat
  body : List Stmt
  /-- The receiver of a method is left out. -/
  positional : List String
  rest : Option String
  keywordOnly : List String
  keywordRest : Option String
  defaults : OrderedMap String Expr

namespace Signature

/-- Every parameter in the order arguments are bound to them. -/
def parameters (s : Signature) : List String :=
  s.positional ++ s.rest.toList ++ s.keywordOnly ++ s.keywordRest.toList

def visible (className : Option String) (names : List String) : List String :=
  match className, names with
  | some _, "self" :: rest | some _, "cls" :: rest => rest
  | _, names => names

def defaultsOf (ps : Parameters Expr) : OrderedMap String Expr :=
  OrderedMap.ofList <| (ps.positionalOnly ++ ps.positional ++ ps.keywordOnly).filterMap fun p =>
    p.default.map (p.name, ·)

def make (key name : String) (className : Option String) (line : Nat) (ps : Parameters Expr)
    (body : List Stmt) : Signature where
  key := key
  name := name
  className := className
  line := line
  body := body
  positional := visible className ((ps.positionalOnly ++ ps.positional).map (·.name))
  rest := ps.rest.map (·.name)
  keywordOnly := ps.keywordOnly.map (·.name)
  keywordRest := ps.keywordRest.map (·.name)
  defaults := defaultsOf ps

def ofMember (className : String) : Stmt → Option Signature
  | .functionDef line name ps body _ =>
    some (make (className ++ "." ++ name) name (some className) line ps body)
  | _ => none

def ofStatement : Stmt → List Signature
  | .functionDef line name ps body _ => [make name name none line ps body]
  | .classDef _ name body _ => body.filterMap (ofMember name)
  | _ => []

/-- The functions of a module by key; a later definition takes the place of an earlier one. -/
def collect (module : List Stmt) : OrderedMap String Signature :=
  OrderedMap.ofList ((module.flatMap ofStatement).map fun s => (s.key, s))

end Signature

end CallTime.Source

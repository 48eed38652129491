import CallTime.Value.Object

/-!
Expressions of Python, with the line each one starts on.
-/

namespace CallTime.Source

inductive NameUse where
  | load | store | delete
  deriving DecidableEq

inductive Junction where
  | and | or
  deriving DecidableEq

inductive BinaryOperator where
  | add | sub | mul | matMul | div | mod | pow | shiftLeft | shiftRight | bitOr | bitXor | bitAnd
  | floorDiv
  deriving DecidableEq

inductive UnaryOperator where
  | invert | not | plus | minus
  deriving DecidableEq

inductive Comparison where
  | eq | ne | lt | le | gt | ge | is | isNot | isIn | notIn
  deriving DecidableEq

/-- An argument by name; without a name a mapping is unpacked. -/
structure Keyword (ε : Type) where
  name : Option String
  value : ε

structure Parameter (ε : Type) where
  name : String
  typeHint : Option ε := none
  default : Option ε := none

structure Parameters (ε : Type) where
  positionalOnly : List (Parameter ε) := []
  positional : List (Parameter ε) := []
  /-- Takes the remaining positional arguments. -/
  rest : Option (Parameter ε) := none
  keywordOnly : List (Parameter ε) := []
  /-- Takes the remaining arguments by name. -/
  keywordRest : Option (Parameter ε) := none

/-- A `for` clause of a comprehension with its conditions. -/
structure Clause (ε : Type) where
  target : ε
  source : ε
  conditions : List ε
  isAsync : Bool

/-- An entry of a dictionary; without a key a mapping is unpacked. -/
structure DictItem (ε : Type) where
  key : Option ε
  value : ε

structure CallSite (ε : Type) where
  line : Nat
  function : ε
  arguments : List ε
  keywords : List (Keyword ε)

structure Comparand (ε : Type) where
  operator : Comparison
  value : ε

/-- How a constant is written: whether with the prefix `u`, and where. -/
structure Spelling where
  marked : Bool := false
  place : Place := []

inductive Expr where
  | junction (line : Nat) (operator : Junction) (values : List Expr)
  | named (line : Nat) (target value : Expr)
  | binary (line : Nat) (operator : BinaryOperator) (left right : Expr)
  | unary (line : Nat) (operator : UnaryOperator) (operand : Expr)
  | lambda (line : Nat) (parameters : Parameters Expr) (body : Expr)
  | conditional (line : Nat) (test body orelse : Expr)
  | dict (line : Nat) (items : List (DictItem Expr))
  | set (line : Nat) (items : List Expr)
  | list (line : Nat) (items : List Expr)
  | tuple (line : Nat) (items : List Expr)
  | listOf (line : Nat) (item : Expr) (clauses : List (Clause Expr))
  | setOf (line : Nat) (item : Expr) (clauses : List (Clause Expr))
  | generator (line : Nat) (item : Expr) (clauses : List (Clause Expr))
  | dictOf (line : Nat) (key value : Expr) (clauses : List (Clause Expr))
  | await (line : Nat) (value : Expr)
  | yield (line : Nat) (value : Option Expr)
  | yieldFrom (line : Nat) (value : Expr)
  | compare (line : Nat) (left : Expr) (rest : List (Comparand Expr))
  | call (site : CallSite Expr)
  /-- A replacement field of a formatted string. -/
  | formatted (line : Nat) (value : Expr) (conversion : Option Char) (spec : Option Expr)
  | joined (line : Nat) (values : List Expr)
  | constant (line : Nat) (value : Value) (spelling : Spelling)
  | attribute (line : Nat) (value : Expr) (name : String)
  | subscript (line : Nat) (value index : Expr)
  | starred (line : Nat) (value : Expr)
  | name (line : Nat) (id : String) (use : NameUse)
  | slice (line : Nat) (lower upper step : Option Expr)

instance : Inhabited Expr := ⟨.constant 0 .null {}⟩

def Parameter.defaults {ε : Type} (ps : List (Parameter ε)) : List ε := ps.filterMap (·.default)

def Parameter.typeHints {ε : Type} (ps : List (Parameter ε)) : List ε :=
  ps.filterMap (·.typeHint)

/-- Type hints and defaults in the order of the fields: defaults of positional parameters come
last. -/
def Parameters.parts {ε : Type} (p : Parameters ε) : List ε :=
  Parameter.typeHints p.positionalOnly ++ Parameter.typeHints p.positional
    ++ Parameter.typeHints p.rest.toList ++ Parameter.typeHints p.keywordOnly
    ++ Parameter.defaults p.keywordOnly ++ Parameter.typeHints p.keywordRest.toList
    ++ Parameter.defaults p.positionalOnly ++ Parameter.defaults p.positional

def CallSite.parts {ε : Type} (s : CallSite ε) : List ε :=
  s.function :: s.arguments ++ s.keywords.map (·.value)

def Clause.parts {ε : Type} (c : Clause ε) : List ε := c.target :: c.source :: c.conditions

namespace Expr

def line : Expr → Nat
  | .junction l _ _ | .named l _ _ | .binary l _ _ _ | .unary l _ _ | .lambda l _ _
  | .conditional l _ _ _ | .dict l _ | .set l _ | .list l _ | .tuple l _ | .listOf l _ _
  | .setOf l _ _ | .generator l _ _ | .dictOf l _ _ _ | .await l _ | .yield l _ | .yieldFrom l _
  | .compare l _ _ | .formatted l _ _ _ | .joined l _ | .constant l _ _
  | .attribute l _ _ | .subscript l _ _ | .starred l _ | .name l _ _ | .slice l _ _ _ => l
  | .call site => site.line

def children : Expr → List Expr
  | .junction _ _ values => values
  | .named _ target value => [target, value]
  | .binary _ _ left right => [left, right]
  | .unary _ _ operand => [operand]
  | .lambda _ parameters body => parameters.parts ++ [body]
  | .conditional _ test body orelse => [test, body, orelse]
  | .dict _ items => items.filterMap (·.key) ++ items.map (·.value)
  | .set _ items | .list _ items | .tuple _ items => items
  | .listOf _ item clauses | .setOf _ item clauses | .generator _ item clauses =>
    item :: clauses.flatMap Clause.parts
  | .dictOf _ key value clauses => key :: value :: clauses.flatMap Clause.parts
  | .await _ value | .yieldFrom _ value => [value]
  | .yield _ value => value.toList
  | .compare _ left rest => left :: rest.map (·.value)
  | .call site => site.parts
  | .formatted _ value _ spec => value :: spec.toList
  | .joined _ values => values
  | .constant _ _ _ => []
  | .attribute _ value _ => [value]
  | .subscript _ value index => [value, index]
  | .starred _ value => [value]
  | .name _ _ _ => []
  | .slice _ lower upper step => lower.toList ++ upper.toList ++ step.toList

theorem sizeOf_filterMap {α : Type} [SizeOf α] (f : α → Option Expr)
    (hf : ∀ a e, f a = some e → sizeOf e < sizeOf a) (as : List α) (e : Expr)
    (h : e ∈ as.filterMap f) : sizeOf e < sizeOf as := by
  obtain ⟨a, ha, he⟩ := List.mem_filterMap.1 h
  exact Nat.lt_trans (hf a e he) (List.sizeOf_lt_of_mem ha)

theorem sizeOf_toList {α : Type} [SizeOf α] (o : Option α) (a : α) (h : a ∈ o.toList) :
    sizeOf a < sizeOf o := by
  cases o with
  | none => simp at h
  | some b => simp at h; subst h; simp

theorem sizeOf_default (p : Parameter Expr) (e : Expr) (h : p.default = some e) :
    sizeOf e < sizeOf p := by
  obtain ⟨_, _, default⟩ := p
  simp at h
  subst h
  simp; omega

theorem sizeOf_typeHint (p : Parameter Expr) (e : Expr) (h : p.typeHint = some e) :
    sizeOf e < sizeOf p := by
  obtain ⟨_, typeHint, _⟩ := p
  simp at h
  subst h
  simp; omega

theorem sizeOf_optional_typeHint (p : Option (Parameter Expr)) (e : Expr)
    (h : e ∈ Parameter.typeHints p.toList) : sizeOf e < sizeOf p := by
  cases p with
  | none => simp [Parameter.typeHints] at h
  | some p =>
    simp [Parameter.typeHints] at h
    have := sizeOf_typeHint p e h
    simp; omega

theorem sizeOf_parameters (p : Parameters Expr) (e : Expr) (h : e ∈ p.parts) :
    sizeOf e < sizeOf p := by
  obtain ⟨po, ps, r, ko, kr⟩ := p
  have hd := sizeOf_filterMap Parameter.default sizeOf_default
  have ha := sizeOf_filterMap Parameter.typeHint sizeOf_typeHint
  have ho := sizeOf_optional_typeHint
  simp only [Parameters.parts, List.mem_append] at h
  simp only [Parameters.mk.sizeOf_spec]
  rcases h with ((((((h | h) | h) | h) | h) | h) | h) | h
  · have := ha po e h; omega
  · have := ha ps e h; omega
  · have := ho r e h; omega
  · have := ha ko e h; omega
  · have := hd ko e h; omega
  · have := ho kr e h; omega
  · have := hd po e h; omega
  · have := hd ps e h; omega

theorem sizeOf_clause (c : Clause Expr) (e : Expr) (h : e ∈ c.parts) : sizeOf e < sizeOf c := by
  obtain ⟨target, source, conditions, isAsync⟩ := c
  simp only [Clause.parts, List.mem_cons] at h
  simp only [Clause.mk.sizeOf_spec]
  rcases h with h | h | h
  · subst h; omega
  · subst h; omega
  · have := List.sizeOf_lt_of_mem h; omega

theorem sizeOf_clauses (cs : List (Clause Expr)) (e : Expr) (h : e ∈ cs.flatMap Clause.parts) :
    sizeOf e < sizeOf cs := by
  obtain ⟨c, hc, he⟩ := List.mem_flatMap.1 h
  exact Nat.lt_trans (sizeOf_clause c e he) (List.sizeOf_lt_of_mem hc)

theorem sizeOf_keywords (ks : List (Keyword Expr)) (k : Keyword Expr) (h : k ∈ ks) :
    sizeOf k.value < sizeOf ks := by
  have := List.sizeOf_lt_of_mem h
  obtain ⟨name, value⟩ := k
  simp at this ⊢
  omega

theorem sizeOf_callSite (s : CallSite Expr) (e : Expr) (h : e ∈ s.parts) : sizeOf e < sizeOf s := by
  obtain ⟨line, function, arguments, keywords⟩ := s
  simp only [CallSite.parts, List.cons_append, List.mem_cons, List.mem_append, List.mem_map] at h
  simp only [CallSite.mk.sizeOf_spec]
  rcases h with rfl | h | ⟨k, hk, rfl⟩
  · omega
  · have := List.sizeOf_lt_of_mem h; omega
  · have := sizeOf_keywords keywords k hk; omega

theorem sizeOf_comparands (cs : List (Comparand Expr)) (c : Comparand Expr) (h : c ∈ cs) :
    sizeOf c.value < sizeOf cs := by
  have := List.sizeOf_lt_of_mem h
  obtain ⟨operator, value⟩ := c
  simp at this ⊢
  omega

theorem sizeOf_dictKey (is : List (DictItem Expr)) (i : DictItem Expr) (e : Expr) (h : i ∈ is)
    (he : i.key = some e) : sizeOf e < sizeOf is := by
  have := List.sizeOf_lt_of_mem h
  obtain ⟨key, value⟩ := i
  simp at he
  subst he
  simp at this ⊢
  omega

theorem sizeOf_dictValue (is : List (DictItem Expr)) (i : DictItem Expr) (h : i ∈ is) :
    sizeOf i.value < sizeOf is := by
  have := List.sizeOf_lt_of_mem h
  obtain ⟨key, value⟩ := i
  simp at this ⊢
  omega

theorem sizeOf_child (e c : Expr) (h : c ∈ e.children) : sizeOf c < sizeOf e := by
  have hl : ∀ es : List Expr, c ∈ es → sizeOf c < sizeOf es := fun es => List.sizeOf_lt_of_mem
  have ho := @sizeOf_toList Expr _
  have hc := fun cs => sizeOf_clauses cs c
  cases e
  case dict items =>
    simp only [children, List.mem_append, List.mem_filterMap, List.mem_map] at h
    simp only [dict.sizeOf_spec]
    rcases h with ⟨i, hi, he⟩ | ⟨i, hi, rfl⟩
    · have := sizeOf_dictKey items i c hi he; omega
    · have := sizeOf_dictValue items i hi; omega
  case lambda parameters body =>
    simp only [children, List.mem_append, List.mem_singleton] at h
    simp only [lambda.sizeOf_spec]
    rcases h with h | rfl
    · have := sizeOf_parameters parameters c h; omega
    · omega
  case compare left rest =>
    simp only [children, List.mem_cons, List.mem_map] at h
    simp only [compare.sizeOf_spec]
    rcases h with rfl | ⟨r, hr, rfl⟩
    · omega
    · have := sizeOf_comparands rest r hr; omega
  case call site =>
    have := sizeOf_callSite site c h
    simp only [call.sizeOf_spec]
    omega
  case constant => simp [children] at h
  case name => simp [children] at h
  all_goals
    simp only [children, List.mem_cons, List.mem_append, List.not_mem_nil, or_false] at h
    simp
    grind

def size (e : Expr) : Nat := 1 + (e.children.attach.map fun ⟨c, _⟩ => size c).foldr (· + ·) 0
termination_by sizeOf e
decreasing_by exact sizeOf_child e _ ‹_›

/-- The calls inside an expression that lie in no other call and in no lambda. The expression itself
may be a call or a lambda. -/
def innerCalls (e : Expr) : List (CallSite Expr) :=
  e.children.attach.flatMap fun ⟨c, _⟩ => match c with
    | .call site => [site]
    | .lambda _ _ _ => []
    | c => innerCalls c
termination_by sizeOf e
decreasing_by exact sizeOf_child e _ ‹_›

/-- The outermost calls at or below an expression; a lambda keeps its calls to itself. -/
def outerCalls : Expr → List (CallSite Expr)
  | .call site => [site]
  | .lambda _ _ _ => []
  | e => e.innerCalls

def boundNames (e : Expr) : List String :=
  match e with
  | .name _ id .store | .name _ id .delete => [id]
  | .lambda _ _ _ | .listOf _ _ _ | .setOf _ _ _ | .generator _ _ _ | .dictOf _ _ _ _ => []
  | e => e.children.attach.flatMap fun ⟨c, _⟩ => boundNames c
termination_by sizeOf e
decreasing_by exact sizeOf_child e _ ‹_›

theorem sizeOf_innerCalls (e : Expr) (s : CallSite Expr) (h : s ∈ e.innerCalls) :
    sizeOf s < sizeOf e := by
  rw [innerCalls] at h
  obtain ⟨⟨c, hc⟩, _, hs⟩ := List.mem_flatMap.1 h
  have hlt := sizeOf_child e c hc
  cases c
  case call site =>
    simp only [List.mem_singleton] at hs
    subst hs
    simp only [call.sizeOf_spec] at hlt
    omega
  case lambda => simp at hs
  all_goals exact Nat.lt_trans (sizeOf_innerCalls _ s hs) hlt
termination_by sizeOf e
decreasing_by all_goals exact hlt

end Expr

end CallTime.Source

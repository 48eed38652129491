import CallTime.Proofs.Defaults
import CallTime.Proofs.Faults
import CallTime.Proofs.Forest
import CallTime.Proofs.Origins

/-!
What a condition means.

The meaning of an expression is given for an assignment of objects to names, from left to right, with
each comparison of a chain made once, and by a judgement of which objects are one. Main statement: where it
has a meaning, the node that is built for it has that value when the arguments are the objects of the
parameters, provided that every constant that is written counts as an object of its own or that the
condition does not ask for the identity of objects.
-/

namespace CallTime

namespace Source

def Comparison.operator : Comparison → Operator
  | .eq => .onValues .equal
  | .ne => .onValues .notEqual
  | .lt => .onValues (.order .less)
  | .le => .onValues (.order .lessEqual)
  | .gt => .onValues (.order .greater)
  | .ge => .onValues (.order .greaterEqual)
  | .is => .identity true
  | .isNot => .identity false
  | .isIn => .onValues .member
  | .notIn => .onValues .notMember

def BinaryOperator.operator? : BinaryOperator → Option ValueOperator
  | .add => some .add
  | .sub => some .sub
  | .mul => some .mul
  | .div => some .div
  | .floorDiv => some .floorDiv
  | .mod => some .mod
  | _ => none

/-- Applies an operator where `same` judges which objects are one. -/
def applyBy (same : Object → Object → Bool) : Operator → Object → Object → Except Fault Object
  | .identity expected, a, b => .ok ⟨.bool (same a b == expected), .made⟩
  | .onValues op, a, b => (Operator.onValues op).apply a b

def Junction.decides : Junction → Bool → Bool
  | .and, b => !b
  | .or, b => b

namespace Expr

mutual

def meaning (same : Object → Object → Bool) (ρ : String → Object) : Expr → Except Fault Object
  | .constant _ v spelling => return ⟨v, .written spelling.place⟩
  | .name _ id _ => return ρ id
  | .compare _ left rest => do
    let first ← meaning same ρ left
    chainMeaning same ρ first rest
  | .binary _ op left right => do
    let a ← meaning same ρ left
    let b ← meaning same ρ right
    match op.operator? with
    | some o => (Operator.onValues o).apply a b
    | none => throw .unimplemented
  | .junction _ op values => junctionMeaning same ρ op values
  | .unary _ .not operand => do
    let a ← meaning same ρ operand
    return ⟨.bool !(← a.value.truth), .made⟩
  | .unary _ .minus (.constant _ v _) => match negated? v with
    | some w => return ⟨w, .made⟩
    | none => throw .wrongKind
  | _ => throw .unimplemented
termination_by structural e => e

/-- The comparisons of a chain after a first value. Each part is looked at once, and the first
comparison that does not hold ends the chain. -/
def chainMeaning (same : Object → Object → Bool) (ρ : String → Object) (first : Object) :
    List (Comparand Expr) → Except Fault Object
  | [] => throw .unimplemented
  | [c] => do
    let second ← comparandMeaning same ρ c
    applyBy same c.operator.operator first second
  | c :: c' :: rest => do
    let second ← comparandMeaning same ρ c
    let outcome ← applyBy same c.operator.operator first second
    if ← outcome.value.truth then chainMeaning same ρ second (c' :: rest) else return outcome
termination_by structural rest => rest

def comparandMeaning (same : Object → Object → Bool) (ρ : String → Object) :
    Comparand Expr → Except Fault Object
  | ⟨_, value⟩ => meaning same ρ value
termination_by structural c => c

def junctionMeaning (same : Object → Object → Bool) (ρ : String → Object) (op : Junction) :
    List Expr → Except Fault Object
  | [] => throw .unimplemented
  | [e] => meaning same ρ e
  | e :: e' :: es => do
    let o ← meaning same ρ e
    if op.decides (← o.value.truth) then return o else junctionMeaning same ρ op (e' :: es)
termination_by structural es => es

end

end Expr

namespace Junction

def join (op : Junction) (r r' : Except Fault Object) : Except Fault Object := do
  let o ← r
  if op.decides (← o.value.truth) then return o else r'

def first (op : Junction) : List (Except Fault Object) → Except Fault Object
  | [] => throw .unimplemented
  | [r] => r
  | r :: r' :: rs => op.join r (op.first (r' :: rs))

theorem join_assoc (op : Junction) (r r' r'' : Except Fault Object) :
    op.join (op.join r r') r'' = op.join r (op.join r' r'') := by
  cases r with
  | error e => rfl
  | ok o =>
    cases ht : o.value.truth with
    | error e => simp [join, ht, bind, Except.bind]
    | ok b =>
      by_cases hb : op.decides b = true
      · simp [join, ht, hb, bind, Except.bind, pure, Except.pure]
      · simp [join, ht, hb, bind, Except.bind]

theorem first_cons_cons (op : Junction) (r r' : Except Fault Object)
    (rs : List (Except Fault Object)) :
    op.first (r :: r' :: rs) = op.first (op.join r r' :: rs) := by
  cases rs with
  | nil => rfl
  | cons r'' rs => rw [first, first, first, join_assoc]

end Junction

namespace Expr

variable {same : Object → Object → Bool} {ρ : String → Object}

theorem junctionMeaning_eq (op : Junction) (es : List Expr) :
    junctionMeaning same ρ op es = op.first (es.map (meaning same ρ)) := by
  induction es with
  | nil => rfl
  | cons e es ih =>
    cases es with
    | nil => rfl
    | cons e' es =>
      rw [junctionMeaning, ih]
      rfl

def link (same : Object → Object → Bool) (ρ : String → Object) :
    Expr × Comparison × Expr → Except Fault Object
  | (left, op, right) => do
    let a ← left.meaning same ρ
    let b ← right.meaning same ρ
    applyBy same op.operator a b

theorem comparandMeaning_eq (c : Comparand Expr) :
    comparandMeaning same ρ c = c.value.meaning same ρ := by
  cases c
  rfl

/-- It makes no difference that a part between two comparisons is looked at for both of them. -/
theorem chainMeaning_eq {left : Expr} {first : Object} (h : left.meaning same ρ = .ok first)
    (rest : List (Comparand Expr)) : chainMeaning same ρ first rest =
      Junction.and.first ((comparisonSteps left rest).map (link same ρ)) := by
  induction rest generalizing left first with
  | nil => rfl
  | cons c rest ih =>
    have hlink : link same ρ (left, c.operator, c.value) =
        c.value.meaning same ρ >>= applyBy same c.operator.operator first := by
      rw [link, h]
      rfl
    cases rest with
    | nil =>
      rw [chainMeaning, comparandMeaning_eq, comparisonSteps, comparisonSteps, List.map_singleton,
        Junction.first, hlink]
    | cons c' rest =>
      rw [chainMeaning, comparandMeaning_eq, comparisonSteps, List.map_cons, hlink]
      cases hc : c.value.meaning same ρ with
      | error e => rfl
      | ok second =>
        simp only [bind, Except.bind, ih hc]
        rw [comparisonSteps, List.map_cons, Junction.first, Junction.join]
        cases applyBy same c.operator.operator first second with
        | error e => rfl
        | ok outcome =>
          simp only [bind, Except.bind]
          cases outcome.value.truth with
          | error e => rfl
          | ok b => cases b <;> rfl

theorem meaning_compare (line : Nat) (left : Expr) {rest : List (Comparand Expr)} (h : rest ≠ []) :
    (Expr.compare line left rest).meaning same ρ =
      Junction.and.first ((comparisonSteps left rest).map (link same ρ)) := by
  rw [meaning]
  cases hl : left.meaning same ρ with
  | ok first => exact chainMeaning_eq hl rest
  | error e =>
    obtain ⟨c, rest, rfl⟩ := List.exists_cons_of_ne_nil h
    have hlink : link same ρ (left, c.operator, c.value) = .error e := by
      rw [link, hl]
      rfl
    cases rest with
    | nil => exact hlink.symm
    | cons c' rest =>
      rw [comparisonSteps, List.map_cons, hlink]
      rfl

end Expr

theorem comparisonSteps_map {α β : Type} (f : α → β) (left : α) (rest : List (Comparand α)) :
    comparisonSteps (f left) (rest.map fun c => ⟨c.operator, f c.value⟩) =
      (comparisonSteps left rest).map fun s => (f s.1, s.2.1, f s.2.2) := by
  induction rest generalizing left with
  | nil => rfl
  | cons c rest ih => simp [comparisonSteps, ih]

theorem map_operator_comparisonSteps {α : Type} (left : α) (rest : List (Comparand α)) :
    (comparisonSteps left rest).map (·.2.1) = rest.map (·.operator) := by
  induction rest generalizing left with
  | nil => rfl
  | cons c rest ih => simp [comparisonSteps, ih]

theorem map_comparisonParts (line : Nat) (left : Expr) (rest : List (Comparand Expr)) :
    (comparisonParts line left rest).map (fun p => (p.1.1, p.2.1, p.2.2.1)) =
      comparisonSteps left rest := by
  rw [comparisonParts, ← comparisonSteps_map Subtype.val, List.map_map]
  congr 1
  exact List.attach_map_subtype_val rest

theorem operator_mem_of_comparisonParts {line : Nat} {left : Expr} {rest : List (Comparand Expr)}
    {l r : { c : Expr // sizeOf c < sizeOf (Expr.compare line left rest) }} {op : Comparison}
    (h : (l, op, r) ∈ comparisonParts line left rest) : op ∈ rest.map (·.operator) := by
  rw [← map_operator_comparisonSteps left, ← map_comparisonParts line, List.map_map]
  exact List.mem_map_of_mem (f := fun p => p.2.1) h

end Source

namespace Draft

open Source (Junction)

/-- What is built of the draft. -/
abbrev built (d : Option Draft) (forest : Forest) : Option Artifact :=
  ((Forest.buildOption d).run forest).1

abbrev after (d : Option Draft) (forest : Forest) : Forest := ((Forest.buildOption d).run forest).2

/-- Building the draft only adds nodes. -/
def Grows (d : Option Draft) : Prop :=
  ∀ forest : Forest, forest.nodes.size ≤ (after d forest).nodes.size

/-- The object stands for `o`, but for the nodes from `lo` on and below `hi`. Of these its own node is one
from `first` on and below `last`. -/
structure Stands (lo hi first last : Nat) (o o' : Object) : Prop where
  eq : o = o'.outside lo hi
  node : ∀ id, o'.origin.node? = some id → (id < lo ∨ hi ≤ id) ∨ first ≤ id ∧ id < last

/-- Wherever from `lo` on and below `hi` the draft is built, its value stands for `o`. -/
def Gives (bound : Option Int → Reading) (lo hi : Nat) (d : Option Draft) (o : Object) : Prop :=
  ∀ forest : Forest, lo ≤ forest.nodes.size → (after d forest).nodes.size ≤ hi →
    ∃ o', Artifact.valueOfOption (fun _ => bound) (built d forest) = .ok (some o') ∧
      Stands lo hi forest.nodes.size (after d forest).nodes.size o o'

variable {bound : Option Int → Reading} {lo hi : Nat} {left right : Option Draft}

theorem Stands.mono {first last first' last' : Nat} {o o' : Object}
    (h : Stands lo hi first last o o') (hf : first' ≤ first) (hl : last ≤ last') :
    Stands lo hi first' last' o o' :=
  ⟨h.eq, fun id hid => (h.node id hid).imp_right fun hr => ⟨by omega, by omega⟩⟩

theorem Stands.truth {first last : Nat} {o o' : Object} (h : Stands lo hi first last o o') :
    o'.value.truth = o.value.truth := by
  rw [h.eq]
  rfl

theorem grows_add (line : Option Nat) (make : Info → Artifact) (forest : Forest) :
    forest.nodes.size ≤ ((Forest.add line make).run forest).2.nodes.size := by
  change forest.nodes.size ≤ (forest.nodes.push _).size
  rw [Array.size_push]
  omega

theorem grows_literal (line : Option Nat) (v : Value) (place : Option Place) :
    Grows (some (.literal line v place)) :=
  fun forest => grows_add line (fun info => .literal info v place) forest

theorem size_binary (line : Option Nat) (op : String) (left right : Option Draft) (forest : Forest) :
    (after (some (.binary line op left right)) forest).nodes.size =
      (after right (after left forest)).nodes.size + 1 :=
  Array.size_push _

theorem grows_binary (hl : Grows left) (hr : Grows right) (line : Option Nat) (op : String) :
    Grows (some (.binary line op left right)) := by
  intro forest
  have hleft := hl forest
  have hright := hr (after left forest)
  rw [size_binary]
  omega

theorem gives_binary {op : String} {o : Object} (line : Option Nat)
    (h : ∀ forest : Forest, lo ≤ forest.nodes.size →
      (after right (after left forest)).nodes.size ≤ hi →
      ∃ o', Reading.binary op (Artifact.valueOfOption (fun _ => bound) (built left forest))
          (Artifact.valueOfOption (fun _ => bound) (built right (after left forest))) = .ok (some o') ∧
        Stands lo hi forest.nodes.size (after right (after left forest)).nodes.size o o') :
    Gives bound lo hi (some (.binary line op left right)) o := by
  intro forest hlo hhi
  rw [size_binary] at hhi ⊢
  obtain ⟨o', hv, hs⟩ := h forest hlo (by omega)
  exact ⟨o', hv, hs.mono (Nat.le_refl _) (Nat.le_succ _)⟩

theorem binary_operation {op : String} {o : Operator} (ho : Operator.ofText? op = some o)
    {a b c : Object} (hc : o.apply a b = .ok c) :
    Reading.binary op (.ok (some a)) (.ok (some b)) = .ok (some c) := by
  have hand : op ≠ "and" := by
    rintro rfl
    cases ho
  have hor : op ≠ "or" := by
    rintro rfl
    cases ho
  have hnot : op ≠ "not" := by
    rintro rfl
    cases ho
  simp [Reading.binary, Reading.operation, hand, hor, hnot, ho, hc, bind, Except.bind]

/-- The operands are built one after the other, so no node belongs to both. -/
theorem gives_operation {op : String} {o : Operator} (ho : Operator.ofText? op = some o)
    {a b c : Object} (line : Option Nat) (hgl : Grows left) (hgr : Grows right)
    (hl : Gives bound lo hi left a) (hr : Gives bound lo hi right b) (hc : o.apply a b = .ok c) :
    Gives bound lo hi (some (.binary line op left right)) c := by
  refine gives_binary line fun forest hlo hhi => ?_
  have hleft := hgl forest
  have hright := hgr (after left forest)
  obtain ⟨a', ha, hsa⟩ := hl forest hlo (by omega)
  obtain ⟨b', hb, hsb⟩ := hr (after left forest) (by omega) hhi
  have hapart : ∀ id, a'.origin.node? = some id → b'.origin.node? = some id → id < lo ∨ hi ≤ id := by
    intro id hida hidb
    have hna := hsa.node id hida
    have hnb := hsb.node id hidb
    omega
  rw [hsa.eq, hsb.eq] at hc
  obtain ⟨c', hc', rfl, hnode⟩ := Object.apply_outside hapart hc
  refine ⟨c', ?_, rfl, fun id hid => ?_⟩
  · rw [ha, hb]
    exact binary_operation ho hc'
  · obtain hid | hid := hnode id hid
    · have hna := hsa.node id hid
      omega
    · have hnb := hsb.node id hid
      omega

theorem gives_not {operand : Option Draft} {a : Object} {b : Bool} (line : Option Nat)
    (h : Gives bound lo hi operand a) (ht : a.value.truth = .ok b) :
    Gives bound lo hi (some (.binary line "not" operand none)) ⟨.bool !b, .made⟩ := by
  refine gives_binary line fun forest hlo hhi => ?_
  obtain ⟨a', ha, hs⟩ := h forest hlo hhi
  refine ⟨⟨.bool !b, .made⟩, ?_, rfl, fun id hid => by cases hid⟩
  rw [ha]
  simp [Reading.binary, Reading.negation, hs.truth, ht, bind, Except.bind, pure, Except.pure]

def Matches (bound : Option Int → Reading) (lo hi : Nat) (r : Except Fault Object)
    (d : Option Draft) : Prop :=
  ∀ o, r = .ok o → Gives bound lo hi d o

theorem binary_junction (op : Junction) {a : Object} {b : Bool} (ht : a.value.truth = .ok b)
    (r : Reading) :
    Reading.binary op.text (.ok (some a)) r = if op.decides b then .ok (some a) else r := by
  cases op <;> cases b <;> simp [Junction.text, Junction.decides, Reading.binary,
    Reading.conjunction, Reading.disjunction, ht, bind, Except.bind, pure, Except.pure]

theorem matches_join (op : Junction) {r r' : Except Fault Object} (line : Option Nat)
    (hgl : Grows left) (hgr : Grows right) (hl : Matches bound lo hi r left)
    (hr : Matches bound lo hi r' right) :
    Matches bound lo hi (op.join r r') (some (.binary line op.text left right)) := by
  intro o ho
  cases r with
  | error e => cases ho
  | ok a =>
    refine gives_binary line fun forest hlo hhi => ?_
    have hleft := hgl forest
    have hright := hgr (after left forest)
    obtain ⟨a', ha, hs⟩ := hl a rfl forest hlo (by omega)
    cases ht : a.value.truth with
    | error e => simp [Junction.join, ht, bind, Except.bind] at ho
    | ok b =>
      rw [ha, binary_junction op (hs.truth.trans ht)]
      simp only [Junction.join, ht, bind, Except.bind] at ho
      split at ho
      · next hd =>
        cases ho
        exact ⟨a', if_pos hd, hs.mono (Nat.le_refl _) hright⟩
      · next hd =>
        obtain ⟨o', ho', hs'⟩ := hr o ho (after left forest) (by omega) hhi
        exact ⟨o', (if_neg hd).trans ho', hs'.mono hleft (Nat.le_refl _)⟩

theorem grows_foldDrafts {line : Nat} {op : String} {d : Option Draft} {ds : List (Option Draft)}
    (hd : Grows d) (hds : ∀ d ∈ ds, Grows d) : Grows (Source.foldDrafts line op (d :: ds)) := by
  rw [Source.foldDrafts]
  induction ds generalizing d with
  | nil => exact hd
  | cons d' ds ih =>
    obtain ⟨hd', hds⟩ := List.forall_mem_cons.mp hds
    exact ih (grows_binary hd hd' _ _) hds

theorem matches_foldDrafts (op : Junction) (line : Nat) {rs : List (Except Fault Object)}
    {ds : List (Option Draft)}
    (h : List.Forall₂ (fun r d => Grows d ∧ Matches bound lo hi r d) rs ds) :
    Matches bound lo hi (op.first rs) (Source.foldDrafts line op.text ds) := by
  cases h with
  | nil =>
    intro o ho
    cases ho
  | cons hd hds =>
    rename_i r d rs ds
    rw [Source.foldDrafts]
    induction hds generalizing r d with
    | nil => exact hd.2
    | cons hd' _ ih =>
      rw [Junction.first_cons_cons, List.foldl_cons]
      exact ih ⟨grows_binary hd.1 hd'.1 _ _, matches_join op (some line) hd.1 hd'.1 hd.2 hd'.2⟩

end Draft

namespace Source

open Draft (Gives Grows Matches)

/-- Made of constants, names that are allowed, comparisons, operators that conditions are evaluated
with, `and`, `or`, `not` and negated numbers. -/
inductive Expr.Testable (allowed : String → Prop) : Expr → Prop
  | constant (line : Nat) (v : Value) (spelling : Spelling) :
    Testable allowed (.constant line v spelling)
  | name (line : Nat) {id : String} (use : NameUse) (h : allowed id) :
    Testable allowed (.name line id use)
  | compare (line : Nat) {left : Expr} {rest : List (Comparand Expr)} (hr : rest ≠ [])
    (h : ∀ e ∈ left :: rest.map (·.value), Testable allowed e) :
    Testable allowed (.compare line left rest)
  | binary (line : Nat) {op : BinaryOperator} {left right : Expr} (ho : op.operator?.isSome)
    (hl : Testable allowed left) (hr : Testable allowed right) :
    Testable allowed (.binary line op left right)
  | junction (line : Nat) (op : Junction) {values : List Expr} (hv : values ≠ [])
    (h : ∀ e ∈ values, Testable allowed e) : Testable allowed (.junction line op values)
  | not (line : Nat) {operand : Expr} (h : Testable allowed operand) :
    Testable allowed (.unary line .not operand)
  | negative (line line' : Nat) {v : Value} (spelling : Spelling) (h : (negated? v).isSome) :
    Testable allowed (.unary line .minus (.constant line' v spelling))

/-- A comparison by `is` or `is not`. -/
def Expr.asksIdentity : Expr → Bool
  | .compare _ _ rest => rest.any fun c => c.operator = .is ∨ c.operator = .isNot
  | _ => false

/-- A judgement of which objects are one that makes no difference to the expression. -/
def Expr.Judged (same : Object → Object → Bool) (e : Expr) : Prop :=
  same = Object.identical ∨ ∀ x, e.Holds x → x.asksIdentity = false

theorem Expr.Judged.child {same : Object → Object → Bool} {e x : Expr} (h : e.Judged same)
    (hx : x ∈ e.children) : x.Judged same :=
  h.imp_right fun h y hy => h y ((holds_child hx).trans hy)

theorem applyBy_identical (op : Operator) (a b : Object) :
    applyBy Object.identical op a b = op.apply a b := by
  cases op <;> rfl

theorem Expr.Judged.applyBy_eq {same : Object → Object → Bool} {line : Nat} {left : Expr}
    {rest : List (Comparand Expr)} (h : (Expr.compare line left rest).Judged same)
    {op : Comparison} (hop : op ∈ rest.map (·.operator)) (a b : Object) :
    applyBy same op.operator a b = op.operator.apply a b := by
  obtain rfl | h := h
  · exact applyBy_identical _ a b
  · have hasks : (rest.any fun c => c.operator = .is ∨ c.operator = .isNot) = false := h _ .refl
    obtain ⟨c, hc, rfl⟩ := List.mem_map.mp hop
    have hne := List.any_eq_false.mp hasks c hc
    cases ho : c.operator <;> first | rfl | simp [ho] at hne

theorem Comparison.ofText?_text (c : Comparison) : Operator.ofText? c.text = some c.operator := by
  cases c <;> rfl

theorem BinaryOperator.exists_evaluated? {op : BinaryOperator} {o : ValueOperator}
    (h : op.operator? = some o) :
    ∃ word, op.evaluated? = some word ∧ Operator.ofText? word = some (.onValues o) := by
  cases op <;> cases h <;> exact ⟨_, rfl, rfl⟩

/-- The names that are allowed have these objects, none of which is the literal of a node from `lo` on
and below `hi`. -/
def Scope.Assigns (scope : Scope) (allowed : String → Prop) (lo hi : Nat) (ρ : String → Object)
    (bound : Option Int → Reading) : Prop :=
  ∀ id, allowed id → bound (scope.parameterIndex? id) = .ok (some (ρ id)) ∧
    ∀ n, (ρ id).origin.node? = some n → n < lo ∨ hi ≤ n

def Scope.Means (scope : Scope) (allowed : String → Prop)
    (outcome : (String → Object) → Except Fault Object) (d : Option Draft) : Prop :=
  d.isSome ∧ Grows d ∧ ∀ lo hi ρ bound, scope.Assigns allowed lo hi ρ bound →
    Matches bound lo hi (outcome ρ) d

section Means

variable {scope : Scope} {allowed : String → Prop}

theorem means_operation {op : String} {o : Operator} (ho : Operator.ofText? op = some o)
    (line : Option Nat) {f g : (String → Object) → Except Fault Object} {left right : Option Draft}
    (hl : scope.Means allowed f left) (hr : scope.Means allowed g right) :
    scope.Means allowed (fun ρ => do o.apply (← f ρ) (← g ρ))
      (some (.binary line op left right)) := by
  obtain ⟨-, hgl, hl⟩ := hl
  obtain ⟨-, hgr, hr⟩ := hr
  refine ⟨rfl, Draft.grows_binary hgl hgr line op, fun lo hi ρ bound hb c hc => ?_⟩
  cases hf : f ρ with
  | error e => simp [hf, bind, Except.bind] at hc
  | ok a =>
    cases hg : g ρ with
    | error e => simp [hf, hg, bind, Except.bind] at hc
    | ok b =>
      simp only [hf, hg, bind, Except.bind] at hc
      exact Draft.gives_operation ho line hgl hgr (hl lo hi ρ bound hb a hf) (hr lo hi ρ bound hb b hg)
        hc

theorem means_not (line : Option Nat) {f : (String → Object) → Except Fault Object}
    {operand : Option Draft} (h : scope.Means allowed f operand) :
    scope.Means allowed (fun ρ => do
      let a ← f ρ
      return ⟨.bool !(← a.value.truth), .made⟩) (some (.binary line "not" operand none)) := by
  obtain ⟨-, hg, h⟩ := h
  refine ⟨rfl, Draft.grows_binary hg (fun _ => Nat.le_refl _) line "not", fun lo hi ρ bound hb c hc => ?_⟩
  cases hf : f ρ with
  | error e => simp [hf, bind, Except.bind] at hc
  | ok a =>
    cases ht : a.value.truth with
    | error e => simp [hf, ht, bind, Except.bind] at hc
    | ok b =>
      simp only [hf, ht, bind, Except.bind, pure, Except.pure, Except.ok.injEq] at hc
      exact hc ▸ Draft.gives_not line (h lo hi ρ bound hb a hf) ht

theorem isSome_foldDrafts (line : Nat) (operator : String) {d : Option Draft} (h : d.isSome)
    (ds : List (Option Draft)) : (foldDrafts line operator (d :: ds)).isSome := by
  rw [foldDrafts]
  induction ds generalizing d with
  | nil => exact h
  | cons d' ds ih => exact ih (d := some _) rfl

theorem means_foldDrafts (op : Junction) (line : Nat)
    {outcomes : List ((String → Object) → Except Fault Object)} {ds : List (Option Draft)}
    (hn : outcomes ≠ []) (h : List.Forall₂ (scope.Means allowed) outcomes ds) :
    scope.Means allowed (fun ρ => op.first (outcomes.map fun r => r ρ))
      (foldDrafts line op.text ds) := by
  refine ⟨?_, ?_, fun lo hi ρ bound hb => Draft.matches_foldDrafts op line ?_⟩
  · cases h with
    | nil => exact absurd rfl hn
    | cons hd hds => exact isSome_foldDrafts line op.text hd.1 _
  · cases h with
    | nil => exact absurd rfl hn
    | cons hd hds =>
      refine Draft.grows_foldDrafts hd.2.1 fun d hm => ?_
      obtain ⟨outcome, -, hd⟩ := exists_of_forall₂ hds hm
      exact hd.2.1
  · rw [List.forall₂_map_left_iff]
    exact h.imp fun _ _ hd => ⟨hd.2.1, hd.2.2 lo hi ρ bound hb⟩

theorem means_constant (line : Option Nat) (v : Value) (place : Place) :
    scope.Means allowed (fun _ => .ok ⟨v, .written place⟩) (some (.literal line v (some place))) := by
  refine ⟨rfl, Draft.grows_literal line v _, fun lo hi ρ bound _ o ho forest _ _ => ?_⟩
  cases ho
  exact ⟨_, rfl, rfl, fun id hid => by cases hid⟩

theorem means_name (line : Option Nat) {id : String} (h : allowed id) :
    scope.Means allowed (fun ρ => .ok (ρ id))
      (some (.reference line id (scope.parameterIndex? id))) := by
  refine ⟨rfl, fun forest => Draft.grows_add line (fun info => .reference info id _) forest,
    fun lo hi ρ bound hb o ho forest _ _ => ?_⟩
  cases ho
  obtain ⟨hv, hn⟩ := hb id h
  refine ⟨ρ id, hv, ?_, fun n hid => .inl (hn n hid)⟩
  rw [Object.outside, Origin.outside_eq hn]

/-- The object of a negated number is known to its own node only. -/
theorem means_negative (line : Option Nat) (w : Value) :
    scope.Means allowed (fun _ => .ok ⟨w, .made⟩) (some (.literal line w)) := by
  refine ⟨rfl, Draft.grows_literal line w none, fun lo hi ρ bound _ o ho forest hlo hhi => ?_⟩
  cases ho
  have hsize : (Draft.after (some (.literal line w)) forest).nodes.size = forest.nodes.size + 1 :=
    Array.size_push _
  refine ⟨⟨w, .node forest.nodes.size⟩, rfl, ?_, fun id hid => ?_⟩
  · rw [Object.outside, Origin.outside, if_pos ⟨hlo, by omega⟩]
  · cases hid
    exact .inr ⟨Nat.le_refl _, by omega⟩

theorem Scope.Means.congr {f g : (String → Object) → Except Fault Object} {d : Option Draft}
    (h : scope.Means allowed f d) (he : ∀ ρ, g ρ = f ρ) : scope.Means allowed g d :=
  ⟨h.1, h.2.1, fun lo hi ρ bound hb => he ρ ▸ h.2.2 lo hi ρ bound hb⟩

/-- Of each construct the draft gives what the construct means. -/
theorem Expr.Testable.lowers (signatures : OrderedMap String Signature) (level : Nat)
    (hs : ∀ id, allowed id → scope.constants.get? id = none) {same : Object → Object → Bool} {e : Expr}
    (he : e.Testable allowed) (hj : e.Judged same) :
    Meets (fun _ => False) (lowerExpr signatures level scope e)
      (scope.Means allowed fun ρ => e.meaning same ρ) := by
  induction he with
  | constant line v spelling =>
    rw [lowerExpr]
    exact means_constant (some line) v spelling.place
  | @name line id use h =>
    rw [lowerExpr, hs id h]
    exact means_name (some line) h
  | @compare line left rest hr h ih =>
    simp only [meaning_compare line left hr]
    rw [lowerExpr]
    refine meets_bind (Q := List.Forall₂ (fun p => scope.Means allowed fun ρ =>
      link same ρ (p.1.1, p.2.1, p.2.2.1)) (comparisonParts line left rest))
      (meets_mapM_forall₂ fun p hp => ?_) fun ds hds => meets_pure ?_
    · obtain ⟨l, op, r⟩ := p
      obtain ⟨hl, hr⟩ := mem_comparisonParts hp
      refine meets_bind (ih l.1 hl (hj.child hl)) fun l' hl' =>
        meets_bind (ih r.1 hr (hj.child hr)) fun r' hr' =>
          (means_operation op.ofText?_text (some line) hl' hr').congr fun ρ => ?_
      simp only [link, hj.applyBy_eq (operator_mem_of_comparisonParts hp)]
    · have hn : comparisonParts line left rest ≠ [] := by
        obtain ⟨c, rest, rfl⟩ := List.exists_cons_of_ne_nil hr
        exact List.cons_ne_nil _ _
      have hfold := means_foldDrafts .and line (fun h => hn (List.map_eq_nil_iff.mp h))
        (List.forall₂_map_left_iff.mpr hds)
      simp only [← map_comparisonParts line left rest, List.map_map] at hfold ⊢
      exact hfold
  | @binary line op left right ho hl hr ihl ihr =>
    obtain ⟨o, ho⟩ := Option.isSome_iff_exists.mp ho
    obtain ⟨word, hw, ht⟩ := op.exists_evaluated? ho
    simp only [meaning, ho]
    rw [lowerExpr, hw]
    exact meets_bind (ihl (hj.child List.mem_cons_self)) fun l hl =>
      meets_bind (ihr (hj.child (List.mem_cons_of_mem left List.mem_cons_self))) fun r hr =>
        means_operation ht (some line) hl hr
  | @junction line op values hv h ih =>
    simp only [meaning, junctionMeaning_eq]
    rw [lowerExpr]
    refine meets_bind (meets_mapM_forall₂
      (R := fun v => scope.Means allowed fun ρ => v.1.meaning same ρ)
      fun v _ => ih v.1 v.2 (hj.child v.2)) fun ds hds => meets_pure ?_
    have hn : values.attach.map (fun v ρ => v.1.meaning same ρ) ≠ [] :=
      fun h => hv (List.attach_eq_nil_iff.mp (List.map_eq_nil_iff.mp h))
    have hfold := means_foldDrafts op line hn (List.forall₂_map_left_iff.mpr hds)
    simp only [List.map_map] at hfold
    rw [← List.attach_map_subtype_val values]
    simp only [List.map_map]
    exact hfold
  | @not line operand h ih =>
    rw [lowerExpr]
    exact meets_bind (ih (hj.child List.mem_cons_self)) fun d hd => means_not (some line) hd
  | @negative line line' v spelling h =>
    obtain ⟨w, hw⟩ := Option.isSome_iff_exists.mp h
    simp only [meaning, hw]
    rw [lowerExpr, hw]
    exact means_negative (some line) w

end Means

namespace Scope

def inside (scope : Scope) (s : Stmt) : Scope :=
  if Program.isStraight s then scope else scope.forget s.boundNames

def after (scope : Scope) (s : Stmt) : Scope :=
  match Program.constantAssignment? s with
  | some (id, v) =>
    { scope.forget s.boundNames with
      constants := (scope.forget s.boundNames).constants.insert id v }
  | none => scope.forget s.boundNames

def places (scope : Scope) : List Stmt → List (Scope × Stmt)
  | [] => []
  | s :: ss => (scope.inside s, s) :: (scope.after s).places ss

variable {scope : Scope} {id : String}

def Keeps (scope : Scope) (id : String) (index : Option Int) : Prop :=
  scope.constants.get? id = none ∧ scope.parameterIndex? id = index

theorem Keeps.forget {index : Option Int} (h : scope.Keeps id index) (names : List String) :
    (scope.forget names).Keeps id index := by
  refine ⟨?_, h.2⟩
  obtain ⟨className, parameters, rebound, constants⟩ := scope
  replace h := h.1
  simp only [Scope.forget] at h ⊢
  induction names generalizing constants with
  | nil => exact h
  | cons name names ih =>
    apply ih
    rw [OrderedMap.get?_erase, h, ite_self]

theorem Keeps.inside {index : Option Int} (h : scope.Keeps id index) (s : Stmt) :
    (scope.inside s).Keeps id index := by
  unfold Scope.inside
  split
  · exact h
  · exact h.forget s.boundNames

theorem Keeps.after {index : Option Int} (h : scope.Keeps id index) {s : Stmt}
    (hs : ∀ v, Program.constantAssignment? s ≠ some (id, v)) :
    (scope.after s).Keeps id index := by
  have hf := h.forget s.boundNames
  unfold Scope.after
  split
  · next name v hc =>
    refine ⟨?_, hf.2⟩
    have hne : name ≠ id := by
      rintro rfl
      exact hs v hc
    rw [OrderedMap.get?_insert, if_neg hne, hf.1]
  · exact hf

theorem Keeps.places {index : Option Int} (h : scope.Keeps id index) {ss : List Stmt}
    (hs : ∀ s ∈ ss, ∀ v, Program.constantAssignment? s ≠ some (id, v)) :
    ∀ q ∈ scope.places ss, q.1.Keeps id index := by
  induction ss generalizing scope with
  | nil =>
    intro q hq
    cases hq
  | cons s ss ih =>
    obtain ⟨hhead, htail⟩ := List.forall_mem_cons.mp hs
    intro q hq
    obtain rfl | hq := List.mem_cons.mp hq
    · exact h.inside s
    · exact ih (h.after hhead) htail q hq

end Scope

theorem Program.body_eq (p : Program) (scope : Scope) (ss : List Stmt) :
    p.body scope ss = do
      let ds ← (scope.places ss).mapM fun q => p.statement q.1 q.2
      return ds.flatMap Option.toList := by
  induction ss generalizing scope with
  | nil => rfl
  | cons s ss ih =>
    rw [body, Scope.places, List.mapM_cons]
    change (do
      let d ← p.statement (scope.inside s) s
      return d.toList ++ (← p.body (scope.after s) ss)) = _
    rw [ih]
    simp

namespace Signature

def scope (f : Signature) : Scope where
  className := f.className
  parameters := f.parameters
  rebound := f.body.flatMap Stmt.boundNames

def places (f : Signature) : List (Scope × Stmt) := f.scope.places f.body

theorem function_eq (p : Program) (module : String) (f : Signature) :
    p.function module f = do
      let ds ← f.places.mapM fun q => p.statement q.1 q.2
      return .function (some f.line) f.name (module ++ "." ++ f.key)
        (f.parameters.mapIdx fun i name => .reference none name (some i))
        (.block none (ds.flatMap Option.toList)) (some f.key) := by
  rw [Program.function]
  change (do
    let statements ← p.body f.scope f.body
    return _) = _
  rw [Program.body_eq, bind_assoc]
  rfl

def Fixed (f : Signature) (id : String) : Prop :=
  id ∈ f.parameters ∧ ∀ s ∈ f.body,
    id ∉ s.boundNames ∧ ∀ v, Program.constantAssignment? s ≠ some (id, v)

theorem Fixed.keeps {f : Signature} {id : String} (h : f.Fixed id) :
    ∃ i : Nat, f.parameters[i]? = some id ∧ ∀ q ∈ f.places, q.1.Keeps id (some i) := by
  have hr : (f.body.flatMap Stmt.boundNames).contains id = false := by
    rw [Bool.eq_false_iff]
    intro hc
    obtain ⟨s, hs, hm⟩ := List.mem_flatMap.mp (List.contains_iff_mem.mp hc)
    exact (h.2 s hs).1 hm
  have hf : (f.parameters.findIdx? (· = id)).isSome = true := by
    rw [List.findIdx?_isSome, List.any_eq_true]
    exact ⟨id, h.1, decide_eq_true rfl⟩
  obtain ⟨i, hi⟩ := Option.isSome_iff_exists.mp hf
  obtain ⟨hlt, hn, -⟩ := List.findIdx?_eq_some_iff_getElem.mp hi
  refine ⟨i, ?_, Scope.Keeps.places ⟨rfl, ?_⟩ fun s hs => (h.2 s hs).2⟩
  · rw [List.getElem?_eq_getElem hlt, of_decide_eq_true hn]
  · rw [Scope.parameterIndex?, scope, hr, hi]
    rfl

end Signature

end Source

def Artifact.object? : Artifact → Option Object
  | .literal info v place => some ⟨v, literalOrigin info.id place⟩
  | _ => none

theorem Artifact.node?_literalOrigin {id n : NodeId} {place : Option Place}
    (h : (literalOrigin id place).node? = some n) : n = id := by
  cases place <;> cases h
  rfl

structure Forest.Literals (forest : Forest) (objects : List Object) (arguments : List Artifact) :
    Prop where
  held : ∀ a ∈ arguments, forest.Holds a
  valued : arguments.map Artifact.object? = objects.map some

theorem Forest.Literals.exists_eq {forest : Forest} {objects : List Object}
    {arguments : List Artifact} (h : forest.Literals objects arguments) {a : Artifact}
    (ha : a ∈ arguments) : ∃ info v place, a = .literal info v place := by
  have hm : a.object? ∈ objects.map some := h.valued ▸ List.mem_map_of_mem ha
  obtain ⟨v, -, hv⟩ := List.mem_map.mp hm
  cases a with
  | literal info w place => exact ⟨info, w, place, rfl⟩
  | _ => cases hv

namespace Artifact

def given (arguments : List Artifact) : Option Int → Reading
  | none => .ok none
  | some index => do
    match ← argumentAt arguments index with
    | none => return none
    | some a => a.closedValue

theorem value_eq_given {forest : Forest} (hs : forest.Sound) {objects : List Object}
    {arguments : List Artifact} (ha : forest.Literals objects arguments) {a : Artifact}
    (h : forest.Holds a) : a.value arguments = a.valueWith fun _ => given arguments := by
  refine valueWith_congr a fun info name index hm => ?_
  have hr : forest.Holds (.reference info name index) :=
    forall_mem_walkFrom hs.closed (fun _ hb => List.mem_singleton.mp hb ▸ h) _ hm
  cases index with
  | none => rfl
  | some index =>
    simp only [boundTo, given]
    cases hb : argumentAt arguments index with
    | error e => rfl
    | ok b =>
      cases b with
      | none => rfl
      | some b =>
        have hm := mem_of_argumentAt hb
        obtain ⟨info', v, place, rfl⟩ := ha.exists_eq hm
        have hne : (Artifact.literal info' v place).id ≠ info.id := by
          intro he
          cases (ha.held _ hm).eq hr he
        simp [hne, bind, Except.bind]

theorem given_of_getElem? {forest : Forest} {objects : List Object} {arguments : List Artifact}
    (ha : forest.Literals objects arguments) {i : Nat} {o : Object} (h : objects[i]? = some o) :
    given arguments (some i) = .ok (some o) ∧
      ∀ n, o.origin.node? = some n → ∃ a ∈ arguments, a.id = n := by
  have ho : (arguments.map object?)[i]? = some (some o) := by
    rw [ha.valued, List.getElem?_map, h, Option.map_some]
  rw [List.getElem?_map] at ho
  obtain ⟨a, hi, hl⟩ := Option.map_eq_some_iff.mp ho
  have hm := List.mem_of_getElem? hi
  obtain ⟨info, w, place, rfl⟩ := ha.exists_eq hm
  cases hl
  refine ⟨?_, fun n hn => ⟨_, hm, (node?_literalOrigin hn).symm⟩⟩
  rw [given, argumentAt_of_nonneg arguments (Int.natCast_nonneg i), Int.toNat_natCast, hi]
  rfl

end Artifact

namespace Source

/-- Wherever in the body of a function a condition over its fixed parameters stands, it is lowered, and
what is built of it has the value that the condition means when the parameters are given as literals, which
are no nodes of what is built. -/
theorem value_of_testable (p : Program) (f : Signature) {q : Scope × Stmt} (hq : q ∈ f.places)
    {e : Expr} (he : e.Testable f.Fixed) :
    ∃ d, p.expr q.1 e = .ok (some d) ∧ ∀ (same : Object → Object → Bool) (ρ : String → Object)
      (o : Object), e.Judged same → e.meaning same ρ = .ok o →
      ∀ (before forest : Forest) (arguments : List Artifact), forest.Sound →
        forest.Holds ((Forest.build d).run before).1 →
        forest.Literals (f.parameters.map ρ) arguments →
        (∀ a ∈ arguments,
          a.id < before.nodes.size ∨ ((Forest.build d).run before).2.nodes.size ≤ a.id) →
        (((Forest.build d).run before).1.value arguments).value = .ok (some o.value) := by
  have hc : ∀ id, f.Fixed id → q.1.constants.get? id = none := by
    intro id hid
    obtain ⟨i, -, hk⟩ := hid.keeps
    exact (hk q hq).1
  have hl (same : Object → Object → Bool) (hj : e.Judged same) :=
    meets_iff.mp (he.lowers p.signatures (defaultLevels p.signatures) hc hj)
  obtain ⟨d, hd⟩ : ∃ d, p.expr q.1 e = .ok (some d) := by
    obtain ⟨herror, hok⟩ := hl Object.identical (.inl rfl)
    cases hx : p.expr q.1 e with
    | error fault => exact (herror fault hx).elim
    | ok d =>
      obtain ⟨d, rfl⟩ := Option.isSome_iff_exists.mp (hok d hx).1
      exact ⟨d, rfl⟩
  refine ⟨d, hd, fun same ρ o hj ho before forest arguments hs hh ha hapart => ?_⟩
  have hmeans := ((hl same hj).2 (some d) hd).2.2
  have hassigns : q.1.Assigns f.Fixed before.nodes.size ((Forest.build d).run before).2.nodes.size ρ
      (Artifact.given arguments) := by
    intro id hid
    obtain ⟨i, hi, hk⟩ := hid.keeps
    rw [(hk q hq).2]
    obtain ⟨hgiven, hnode⟩ := Artifact.given_of_getElem? ha (i := i) (o := ρ id) (by
      rw [List.getElem?_map, hi, Option.map_some])
    refine ⟨hgiven, fun n hn => ?_⟩
    obtain ⟨a, hm, rfl⟩ := hnode n hn
    exact hapart a hm
  obtain ⟨o', ho', hstands⟩ := hmeans _ _ ρ _ hassigns o ho before (Nat.le_refl _) (Nat.le_refl _)
  have hv : ((Forest.build d).run before).1.value arguments = .ok (some o') := by
    rw [Artifact.value_eq_given hs ha hh]
    exact ho'
  rw [hv, hstands.eq]
  rfl

section Window

/-- The condition `0 < n <= 10 and not n % 3 == m or n == -1`. -/
def windowTest : Expr :=
  .junction 3 .or [
    .junction 3 .and [
      .compare 3 (.constant 3 (.int 0) { place := [0] })
        [⟨.lt, .name 3 "n" .load⟩, ⟨.le, .constant 3 (.int 10) { place := [1] }⟩],
      .unary 3 .not (.compare 3 (.binary 3 .mod (.name 3 "n" .load)
          (.constant 3 (.int 3) { place := [2] }))
        [⟨.eq, .name 3 "m" .load⟩])],
    .compare 3 (.name 3 "n" .load) [⟨.eq, .unary 3 .minus (.constant 3 (.int 1) { place := [3] })⟩]]

/-- A function of `n` and `m` that assigns to another name before it tests the two. -/
def window : Signature where
  key := "window"
  name := "window"
  className := none
  line := 1
  body := [
    .assign 2 [.name 2 "k" .store] (.constant 2 (.int 5) {}),
    .ifElse 3 windowTest [.ret 4 (some (.name 4 "k" .load))] []]
  positional := ["n", "m"]
  rest := none
  keywordOnly := []
  keywordRest := none
  defaults := {}

theorem fixed_window {id : String} (h : id ∈ window.parameters) : window.Fixed id := by
  have hk : id ≠ "k" := by
    rintro rfl
    revert h
    decide
  refine ⟨h, fun s hs => ?_⟩
  obtain rfl | rfl : s = _ ∨ s = _ := by simpa [window] using hs
  · simp [Stmt.boundNames, Expr.boundNames, Expr.children, Program.constantAssignment?, hk, hk.symm]
  · simp [Stmt.boundNames, Stmt.boundNamesList, Expr.boundNames, Expr.children, windowTest,
      Program.constantAssignment?]

theorem testable_windowTest : windowTest.Testable window.Fixed := by
  have hn : (Expr.name 3 "n" .load).Testable window.Fixed := .name _ _ (fixed_window (by decide))
  have hm : (Expr.name 3 "m" .load).Testable window.Fixed := .name _ _ (fixed_window (by decide))
  have hc (k : Int) (s : Spelling) : (Expr.constant 3 (.int k) s).Testable window.Fixed :=
    .constant _ _ _
  have hmod : (Expr.binary 3 .mod (.name 3 "n" .load)
      (.constant 3 (.int 3) { place := [2] })).Testable window.Fixed := .binary 3 rfl hn (hc 3 _)
  have hneg : (Expr.unary 3 .minus (.constant 3 (.int 1) { place := [3] })).Testable window.Fixed :=
    .negative 3 3 _ rfl
  refine .junction 3 .or (List.cons_ne_nil _ _) (List.forall_mem_cons.mpr ⟨?_, ?_⟩)
  · refine .junction 3 .and (List.cons_ne_nil _ _) ?_
    simp only [List.forall_mem_cons]
    refine ⟨.compare 3 (List.cons_ne_nil _ _) ?_, .not 3 (.compare 3 (List.cons_ne_nil _ _) ?_),
      List.forall_mem_nil _⟩
    · simp [hn, hc]
    · simp [hm, hmod]
  · refine List.forall_mem_singleton.mpr (.compare 3 (List.cons_ne_nil _ _) ?_)
    simp [hn, hneg]

def windowArguments : List Draft := [.literal none (.int 2), .literal none (.int 1)]

def windowObject (id : String) : Object :=
  if id = "n" then ⟨.int 2, .node 0⟩ else ⟨.int 1, .node 1⟩

theorem meaning_windowTest :
    windowTest.meaning Object.identical windowObject = .ok ⟨.bool true, .made⟩ := by
  rfl

/-- With two and one for the parameters the last comparison is not looked at. -/
theorem value_of_testable_window :
    ∃ q ∈ window.places, ∃ d, (Program.mk {}).expr q.1 windowTest = .ok (some d) ∧
      ((do
        let arguments ← Forest.buildList windowArguments
        return ((← Forest.build d).value arguments).value).run {}).1 = .ok (some (.bool true)) := by
  refine ⟨_, List.mem_cons_of_mem _ List.mem_cons_self, ?_⟩
  obtain ⟨d, hd, hv⟩ := value_of_testable ⟨{}⟩ window (List.mem_cons_of_mem _ List.mem_cons_self)
    testable_windowTest
  have ha := Forest.builds_buildList windowArguments Forest.sound_empty
  have hb := Forest.builds_build d ha.sound
  refine ⟨d, hd, hv _ _ _ (.inl rfl) meaning_windowTest _ _ _ hb.sound hb.gives
    ⟨fun a h => hb.keeps a (ha.gives a h), rfl⟩ fun a h => .inl ?_⟩
  exact (ha.gives a h).lt

end Window

section Twins

/-- Equal constants count as one object wherever they are written. -/
def merged (a b : Object) : Bool :=
  match a.origin, b.origin with
  | .written _, .written _ => a.value.kind == b.value.kind && a.value.equal b.value
  | _, _ => a.identical b

/-- The condition `'ab' is 'ab'`. -/
def twinTest : Expr :=
  .compare 2 (.constant 2 (.str (Text.ofString "ab")) { place := [6] })
    [⟨.is, .constant 2 (.str (Text.ofString "ab")) { place := [8] }⟩]

def twinDraft : Draft :=
  .binary (some 2) "is" (some (.literal (some 2) (.str (Text.ofString "ab")) (some [6])))
    (some (.literal (some 2) (.str (Text.ofString "ab")) (some [8])))

theorem expr_twinTest : (Program.mk {}).expr {} twinTest = .ok (some twinDraft) := by
  simp only [Program.expr, twinTest, lowerExpr, comparisonParts, comparisonSteps, List.attach_cons,
    List.attach_nil, List.map_cons, List.map_nil, List.mapM_cons, List.mapM_nil]
  rfl

/-- Where equal constants are one object the condition holds, but it is evaluated to false. -/
theorem twin_constants_told_apart :
    twinTest.Testable (fun _ => False) ∧
      (∀ ρ, twinTest.meaning merged ρ = .ok ⟨.bool true, .made⟩) ∧
      ∃ d, (Program.mk {}).expr {} twinTest = .ok (some d) ∧
        (((Forest.build d).run {}).1.value []).value = .ok (some (.bool false)) := by
  refine ⟨.compare 2 (List.cons_ne_nil _ _) ?_, fun ρ => rfl, twinDraft, expr_twinTest, rfl⟩
  simp [Expr.Testable.constant]

end Twins

end Source

end CallTime

import CallTime.Proofs.CallSites
import Mathlib

/-!
Which calls of a function are calls of its tree.

Statements lead more calls astray than expressions do: those in what they bind are lost, and some
statements are lowered only for the calls inside, those of exception handlers among them. Main
statement: a call in the body of a function that lies in nothing astray is once in the tree of the
function.
-/

namespace CallTime.Source

open Draft (originsList originsOption)

namespace Pattern

mutual

def expressions : Pattern → List Expr
  | .value v => [v]
  | .singleton _ | .star _ => []
  | .sequence items | .alternatives items => expressionsList items
  | .mapping keys values _ => keys ++ expressionsList values
  | .record c positional _ keyword => c :: expressionsList positional ++ expressionsList keyword
  | .capture pattern _ => expressionsOption pattern
termination_by structural p => p

def expressionsList : List Pattern → List Expr
  | [] => []
  | p :: ps => p.expressions ++ expressionsList ps
termination_by structural ps => ps

def expressionsOption : Option Pattern → List Expr
  | none => []
  | some p => p.expressions
termination_by structural p => p

end

mutual

theorem outerCalls_eq (p : Pattern) : p.outerCalls = p.expressions.flatMap Expr.outerCalls := by
  cases p with
  | value v => exact (List.append_nil _).symm
  | singleton _ => rfl
  | star _ => rfl
  | sequence items => exact outerCallsList_eq items
  | alternatives items => exact outerCallsList_eq items
  | mapping keys values rest =>
    rw [outerCalls, expressions, List.flatMap_append, outerCallsList_eq values]
  | record c positional names keyword =>
    rw [outerCalls, expressions, List.flatMap_append, List.flatMap_cons, outerCallsList_eq positional,
      outerCallsList_eq keyword]
  | capture pattern name => exact outerCallsOption_eq pattern
termination_by structural p

theorem outerCallsList_eq (ps : List Pattern) :
    outerCallsList ps = (expressionsList ps).flatMap Expr.outerCalls := by
  cases ps with
  | nil => rfl
  | cons p ps =>
    rw [outerCallsList, expressionsList, List.flatMap_append, outerCalls_eq p, outerCallsList_eq ps]
termination_by structural ps

theorem outerCallsOption_eq (p : Option Pattern) :
    outerCallsOption p = (expressionsOption p).flatMap Expr.outerCalls := by
  cases p with
  | none => rfl
  | some p => exact outerCalls_eq p
termination_by structural p

end

end Pattern

namespace Stmt

mutual

/-- The expressions of a statement that lie in no definition and in no exception handler. -/
def expressions : Stmt → List Expr
  | .ret _ value => value.toList
  | .delete _ targets => targets
  | .assign _ targets value => targets ++ [value]
  | .augment _ target _ value => [target, value]
  | .annotate _ target typeHint value _ => target :: typeHint :: value.toList
  | .forLoop _ target source body orelse =>
    target :: source :: expressionsList body ++ expressionsList orelse
  | .whileLoop _ test body orelse | .ifElse _ test body orelse =>
    test :: expressionsList body ++ expressionsList orelse
  | .withBlock _ items body => items.flatMap WithItem.parts ++ expressionsList body
  | .matchCases _ subject cases => subject :: expressionsCases cases
  | .raise _ exception cause => exception.toList ++ cause.toList
  | .tryBlock _ body _ orelse final | .tryGroup _ body _ orelse final =>
    expressionsList body ++ expressionsList orelse ++ expressionsList final
  | .assert _ test message => test :: message.toList
  | .expr _ value => [value]
  | _ => []
termination_by structural s => s

def expressionsList : List Stmt → List Expr
  | [] => []
  | s :: ss => s.expressions ++ expressionsList ss
termination_by structural ss => ss

def expressionsCases : List MatchCase → List Expr
  | [] => []
  | c :: cs => expressionsCase c ++ expressionsCases cs
termination_by structural cs => cs

def expressionsCase : MatchCase → List Expr
  | .mk pattern guard body => pattern.expressions ++ guard.toList ++ expressionsList body
termination_by structural c => c

end

mutual

def handled : Stmt → List Expr
  | .forLoop _ _ _ body orelse | .whileLoop _ _ body orelse | .ifElse _ _ body orelse =>
    handledList body ++ handledList orelse
  | .withBlock _ _ body => handledList body
  | .matchCases _ _ cases => handledCases cases
  | .tryBlock _ body handlers orelse final | .tryGroup _ body handlers orelse final =>
    handledList body ++ handledHandlers handlers ++ handledList orelse ++ handledList final
  | _ => []
termination_by structural s => s

def handledList : List Stmt → List Expr
  | [] => []
  | s :: ss => s.handled ++ handledList ss
termination_by structural ss => ss

def handledHandlers : List Handler → List Expr
  | [] => []
  | h :: hs => handledHandler h ++ handledHandlers hs
termination_by structural hs => hs

def handledHandler : Handler → List Expr
  | .mk type _ body => type.toList ++ expressionsList body ++ handledList body
termination_by structural h => h

def handledCases : List MatchCase → List Expr
  | [] => []
  | c :: cs => handledCase c ++ handledCases cs
termination_by structural cs => cs

def handledCase : MatchCase → List Expr
  | .mk _ _ body => handledList body
termination_by structural c => c

end

def Splits (cs : List (CallSite Expr)) (es hs : List Expr) : Prop :=
  cs.Perm ((es ++ hs).flatMap Expr.outerCalls)

theorem splits_flatMap (es : List Expr) : Splits (es.flatMap Expr.outerCalls) es [] := by
  rw [Splits, List.append_nil]

theorem splits_outerCalls (e : Expr) : Splits e.outerCalls [e] [] := by
  rw [Splits, List.append_nil, List.flatMap_singleton]

theorem Splits.append {cs cs' : List (CallSite Expr)} {es es' hs hs' : List Expr}
    (h : Splits cs es hs) (h' : Splits cs' es' hs') : Splits (cs ++ cs') (es ++ es') (hs ++ hs') := by
  refine (List.Perm.append h h').trans ?_
  rw [← List.flatMap_append]
  refine List.Perm.flatMap_right _ ?_
  simp only [List.append_assoc]
  refine List.Perm.append_left es ?_
  rw [← List.append_assoc, ← List.append_assoc]
  exact List.perm_append_comm.append_right hs'

theorem Splits.toRight {cs : List (CallSite Expr)} {es hs : List Expr} (h : Splits cs es hs) :
    Splits cs [] (es ++ hs) :=
  h

mutual

theorem splits_innerCalls (s : Stmt) : Splits s.innerCalls s.expressions s.handled := by
  cases s with
  | ret line value => exact splits_flatMap _
  | delete line targets => exact splits_flatMap _
  | assign line targets value => exact (splits_flatMap targets).append (splits_outerCalls value)
  | augment line target op value => exact (splits_outerCalls target).append (splits_outerCalls value)
  | annotate line target typeHint value _ =>
    exact ((splits_outerCalls target).append (splits_outerCalls typeHint)).append (splits_flatMap _)
  | forLoop line target source body orelse =>
    exact (((splits_outerCalls target).append (splits_outerCalls source)).append
      (splits_innerCallsList body)).append (splits_innerCallsList orelse)
  | whileLoop line test body orelse =>
    exact ((splits_outerCalls test).append (splits_innerCallsList body)).append
      (splits_innerCallsList orelse)
  | ifElse line test body orelse =>
    exact ((splits_outerCalls test).append (splits_innerCallsList body)).append
      (splits_innerCallsList orelse)
  | withBlock line items body => exact (splits_flatMap _).append (splits_innerCallsList body)
  | matchCases line subject cases =>
    exact (splits_outerCalls subject).append (splits_innerCallsCases cases)
  | raise line exception cause => exact (splits_flatMap _).append (splits_flatMap _)
  | tryBlock line body handlers orelse final =>
    have h := (((splits_innerCallsList body).append (splits_innerCallsHandlers handlers)).append
      (splits_innerCallsList orelse)).append (splits_innerCallsList final)
    rw [List.append_nil] at h
    exact h
  | tryGroup line body handlers orelse final =>
    have h := (((splits_innerCallsList body).append (splits_innerCallsHandlers handlers)).append
      (splits_innerCallsList orelse)).append (splits_innerCallsList final)
    rw [List.append_nil] at h
    exact h
  | assert line test message => exact (splits_outerCalls test).append (splits_flatMap _)
  | expr line value => exact splits_outerCalls value
  | _ => exact .refl _
termination_by structural s

theorem splits_innerCallsList (ss : List Stmt) :
    Splits (innerCallsList ss) (expressionsList ss) (handledList ss) := by
  cases ss with
  | nil => exact .refl _
  | cons s ss => exact (splits_innerCalls s).append (splits_innerCallsList ss)
termination_by structural ss

theorem splits_innerCallsHandlers (hs : List Handler) :
    Splits (innerCallsHandlers hs) [] (handledHandlers hs) := by
  cases hs with
  | nil => exact .refl _
  | cons h hs => exact (splits_innerCallsHandler h).append (splits_innerCallsHandlers hs)
termination_by structural hs

theorem splits_innerCallsHandler (h : Handler) :
    Splits (innerCallsHandler h) [] (handledHandler h) := by
  cases h with
  | mk type name body => exact ((splits_flatMap _).append (splits_innerCallsList body)).toRight
termination_by structural h

theorem splits_innerCallsCases (cs : List MatchCase) :
    Splits (innerCallsCases cs) (expressionsCases cs) (handledCases cs) := by
  cases cs with
  | nil => exact .refl _
  | cons c cs => exact (splits_innerCallsCase c).append (splits_innerCallsCases cs)
termination_by structural cs

theorem splits_innerCallsCase (c : MatchCase) :
    Splits (innerCallsCase c) (expressionsCase c) (handledCase c) := by
  cases c with
  | mk pattern guard body =>
    have hp : Splits pattern.outerCalls pattern.expressions [] := by
      rw [pattern.outerCalls_eq]
      exact splits_flatMap _
    exact (hp.append (splits_flatMap _)).append (splits_innerCallsList body)
termination_by structural c

end

def targets : Stmt → List Expr
  | .assign _ targets _ => targets
  | .augment _ target _ _ | .forLoop _ target _ _ _ => [target]
  | .annotate _ target typeHint _ _ => [target, typeHint]
  | .withBlock _ items _ => items.flatMap (·.target.toList)
  | _ => []

def values : Stmt → List Expr
  | .ifElse _ test _ _ | .whileLoop _ test _ _ => [test]
  | .forLoop _ _ source _ _ => [source]
  | .withBlock _ items _ => items.map (·.context)
  | .ret _ value | .annotate _ _ _ value _ => value.toList
  | .expr _ value | .assign _ _ value | .augment _ _ _ value => [value]
  | _ => []

def blocks : Stmt → List Stmt
  | .ifElse _ _ body orelse | .whileLoop _ _ body orelse | .forLoop _ _ _ body orelse =>
    body ++ orelse
  | .withBlock _ _ body => body
  | .tryBlock _ body _ orelse final => body ++ orelse ++ final
  | _ => []

def isCollected : Stmt → Bool
  | .delete _ _ | .matchCases _ _ _ | .raise _ _ _ | .tryGroup _ _ _ _ _ | .assert _ _ _ => true
  | _ => false

theorem of_isCollected {s : Stmt} (h : s.isCollected = true) : s.values = [] ∧ s.blocks = [] := by
  cases s with
  | delete | matchCases | raise | tryGroup | assert => exact ⟨rfl, rfl⟩
  | _ => cases h

theorem sizeOf_block {s t : Stmt} (h : t ∈ s.blocks) : sizeOf t < sizeOf s := by
  have hlist {ss : List Stmt} (h : t ∈ ss) : sizeOf t < sizeOf ss := List.sizeOf_lt_of_mem h
  cases s with
  | ifElse line test body orelse | whileLoop line test body orelse
  | forLoop line target source body orelse =>
    obtain h | h := List.mem_append.mp h <;> have := hlist h <;> simp <;> omega
  | withBlock line items body =>
    have : sizeOf t < sizeOf body := hlist h
    simp
    omega
  | tryBlock line body handlers orelse final =>
    obtain h | h := List.mem_append.mp h
    · obtain h | h := List.mem_append.mp h <;> have := hlist h <;> simp <;> omega
    · have := hlist h
      simp
      omega
  | _ => cases h

/-- The expressions that are lowered with a statement, each with what it is lowered for. -/
def roots (s : Stmt) : List (Mode × Expr) :=
  s.values.map (.value, ·) ++ (s.blocks.attach.flatMap fun ⟨t, _⟩ => t.roots) ++
    if s.isCollected then (s.expressions ++ s.handled).map (.part, ·) else []
termination_by sizeOf s
decreasing_by exact sizeOf_block ‹_›

def charged (signatures : OrderedMap String Signature) (className : Option String) (s : Stmt) :
    List (CallSite Expr) :=
  s.roots.flatMap fun r => r.2.charged signatures className r.1

theorem roots_eq (s : Stmt) : s.roots = s.values.map (.value, ·) ++ s.blocks.flatMap roots ++
    if s.isCollected then (s.expressions ++ s.handled).map (.part, ·) else [] := by
  rw [roots]
  simp

theorem charged_eq {signatures : OrderedMap String Signature} {className : Option String} (s : Stmt) :
    s.charged signatures className = s.values.flatMap (Expr.charged signatures className .value) ++
      s.blocks.flatMap (charged signatures className) ++
      if s.isCollected then (s.expressions ++ s.handled).flatMap (Expr.charged signatures className .part)
      else [] := by
  rw [charged, roots_eq, List.flatMap_append, List.flatMap_append, List.flatMap_map, List.flatMap_assoc]
  split
  · rw [List.flatMap_map]
    rfl
  · rfl

section Stray

variable (signatures : OrderedMap String Signature) (className : Option String)

inductive Stray : Stmt → Expr → Prop
  /-- What is bound is not looked at. -/
  | target {s : Stmt} {e : Expr} (he : e ∈ s.targets) : Stray s e
  | value {s : Stmt} {e x : Expr} (he : e ∈ s.values)
    (h : Source.Stray signatures className .value e x) : Stray s x
  | block {s t : Stmt} {x : Expr} (ht : t ∈ s.blocks) (h : Stray t x) : Stray s x
  | collected {s : Stmt} {e x : Expr} (hs : s.isCollected = true) (he : e ∈ s.expressions)
    (h : Source.Stray signatures className .part e x) : Stray s x
  | handler {s : Stmt} {e : Expr} (hs : s.isCollected = true) (he : e ∈ s.handled) : Stray s e

/-- Nothing astray in the statement holds a call from there. -/
def Tracked (o : Origin) (s : Stmt) : Prop := ∀ x, s.Stray signatures className x → x.Absent o

end Stray

variable {signatures : OrderedMap String Signature} {className : Option String} {o : Origin}

theorem expressionsList_eq (ss : List Stmt) : expressionsList ss = ss.flatMap expressions := by
  induction ss with
  | nil => rfl
  | cons s ss ih => rw [expressionsList, List.flatMap_cons, ih]

theorem tally_items (g : Expr → List (CallSite Expr)) (items : List WithItem) :
    tally o ((items.flatMap WithItem.parts).flatMap g) =
      tally o ((items.flatMap (·.target.toList)).flatMap g) +
        tally o ((items.map (·.context)).flatMap g) := by
  induction items with
  | nil => rfl
  | cons i items ih =>
    simp only [List.flatMap_cons, List.flatMap_append, List.map_cons, tally_append, WithItem.parts, ih]
    omega

theorem tally_expressions (g : Expr → List (CallSite Expr)) {s : Stmt} (hs : s.isCollected = false) :
    tally o (s.expressions.flatMap g) = tally o (s.targets.flatMap g) + tally o (s.values.flatMap g) +
      tally o (s.blocks.flatMap fun t => t.expressions.flatMap g) := by
  cases s with
  | delete | matchCases | raise | tryGroup | assert => cases hs
  | withBlock line items body =>
    have hbody : (expressionsList body).flatMap g = body.flatMap fun t => t.expressions.flatMap g := by
      rw [expressionsList_eq, List.flatMap_assoc]
    rw [expressions, List.flatMap_append, tally_append, tally_items, hbody]
    rfl
  | ifElse | whileLoop | forLoop | tryBlock | augment | annotate | assign | ret | expr =>
    simp [expressions, targets, values, blocks, expressionsList_eq, List.flatMap_assoc, Nat.add_assoc]
  | _ => rfl

theorem tally_charged (s : Stmt) (h : s.Tracked signatures className o) :
    tally o (s.charged signatures className) = tally o (s.expressions.flatMap Expr.calls) := by
  have hvalues : ∀ e ∈ s.values, tally o (e.charged signatures className .value) = tally o e.calls :=
    fun e he => Source.Tracked.tally_charged fun x hx => h x (.value he hx)
  have hblocks : ∀ t ∈ s.blocks,
      tally o (t.charged signatures className) = tally o (t.expressions.flatMap Expr.calls) := by
    intro t ht
    have := sizeOf_block ht
    exact tally_charged t fun x hx => h x (.block ht hx)
  rw [charged_eq, tally_append, tally_append, tally_flatMap_congr hvalues, tally_flatMap_congr hblocks]
  cases hs : s.isCollected with
  | false =>
    have hz : tally o (s.targets.flatMap Expr.calls) = 0 :=
      tally_flatMap_eq_zero fun e he => (h e (.target he)).tally_calls
    rw [tally_expressions Expr.calls hs, hz, Nat.zero_add]
    rfl
  | true =>
    obtain ⟨hv, hb⟩ := of_isCollected hs
    have hparts : ∀ e ∈ s.expressions,
        tally o (e.charged signatures className .part) = tally o e.calls :=
      fun e he => Source.Tracked.tally_charged fun x hx => h x (.collected hs he hx)
    have hz : tally o (s.handled.flatMap (Expr.charged signatures className .part)) = 0 :=
      tally_flatMap_eq_zero fun e he => (h e (.handler hs he)).tally_charged .part
    rw [if_pos rfl, List.flatMap_append, tally_append, tally_flatMap_congr hparts, hz, hv, hb]
    exact Nat.zero_add _
termination_by sizeOf s

end Stmt

namespace Program

variable {o : Origin}

theorem count_expr (p : Program) (hd : OutsideDefaults p.signatures o) (scope : Scope) (e : Expr) :
    Meets (fun _ => True) (p.expr scope e)
      fun d => (originsOption d).count o = tally o (e.charged p.signatures scope.className .value) :=
  (count_lowered hd).1 _ scope e

theorem count_nested (p : Program) (hd : OutsideDefaults p.signatures o) (scope : Scope) (line : Nat)
    {s : Stmt} (hs : s.isCollected = true) : Meets (fun _ => True) (p.nested scope line s)
      fun d => (originsOption d).count o = tally o (s.charged p.signatures scope.className) := by
  refine meets_bind (meets_mapM_forall₂ (R := fun c d => d.origins.count o =
    tally o ((Expr.call c).charged p.signatures scope.className .part))
    fun c _ => (count_lowered hd).2.2.1 _ scope c) fun ds hds => meets_pure ?_
  have hcount : tally o _ = tally o _ :=
    ((s.splits_innerCalls.flatMap_right
      fun c => (Expr.call c).charged p.signatures scope.className .part).map CallSite.origin).count_eq o
  rw [List.flatMap_assoc] at hcount
  simp only [← Expr.charged_part] at hcount
  obtain ⟨hvalues, hblocks⟩ := Stmt.of_isCollected hs
  rw [originsOption_gather, count_originsList hds, hcount, Stmt.charged_eq, hvalues, hblocks, if_pos hs]
  rfl

theorem count_value (p : Program) (hd : OutsideDefaults p.signatures o) (scope : Scope) {s : Stmt}
    {e : Expr} (hv : s.values = [e]) (hb : s.blocks = []) (hs : s.isCollected = false) :
    Meets (fun _ => True) (p.expr scope e)
      fun d => (originsOption d).count o = tally o (s.charged p.signatures scope.className) := by
  have hcharged : s.charged p.signatures scope.className =
      e.charged p.signatures scope.className .value := by
    simp [Stmt.charged_eq, hv, hb, hs]
  rw [hcharged]
  exact p.count_expr hd scope e

theorem count_loop (p : Program) (scope : Scope) (line : Nat) {s : Stmt} {e : Expr}
    {body orelse : List Stmt} {c : Option Draft} {i a : List Draft} (hv : s.values = [e])
    (hb : s.blocks = body ++ orelse) (hs : s.isCollected = false)
    (hc : (originsOption c).count o = tally o (e.charged p.signatures scope.className .value))
    (hi : (originsList i).count o = tally o (body.flatMap (Stmt.charged p.signatures scope.className)))
    (ha : (originsList a).count o =
      tally o (orelse.flatMap (Stmt.charged p.signatures scope.className))) :
    (originsOption (some (.block (some line) (c.toList ++ i ++ a)))).count o =
      tally o (s.charged p.signatures scope.className) := by
  simp [originsOption, Draft.origins, Draft.originsList_append, Draft.originsList_toList,
    Stmt.charged_eq, hv, hb, hs, hc, hi, ha]

mutual

/-- A statement that is lowered has the calls that it is charged with. -/
theorem count_statement (p : Program) (hd : OutsideDefaults p.signatures o) (scope : Scope) (s : Stmt) :
    Meets (fun _ => True) (p.statement scope s)
      fun d => (originsOption d).count o = tally o (s.charged p.signatures scope.className) := by
  cases s with
  | ifElse line test body orelse =>
    refine meets_bind (p.count_expr hd scope test) fun c hc => ?_
    refine meets_bind (count_statements p hd scope body) fun t ht => ?_
    refine meets_bind (count_statements p hd scope orelse) fun e he => meets_pure ?_
    have helse : (originsOption (if orelse.isEmpty then none else some (.block none e))).count o =
        (originsList e).count o := by
      split
      · next hempty =>
        rw [he, List.isEmpty_iff.mp hempty]
        rfl
      · rfl
    rw [originsOption, Draft.origins, List.count_append, List.count_append, helse, Stmt.charged_eq]
    simp [originsOption, Draft.origins, Stmt.values, Stmt.blocks, Stmt.isCollected, hc, ht, he,
      Nat.add_assoc]
  | forLoop line target source body orelse =>
    refine meets_bind (p.count_expr hd scope source) fun c hc => ?_
    refine meets_bind (count_statements p hd scope body) fun i hi => ?_
    refine meets_bind (count_statements p hd scope orelse) fun a ha => meets_pure ?_
    exact p.count_loop scope line rfl rfl rfl hc hi ha
  | whileLoop line test body orelse =>
    refine meets_bind (p.count_expr hd scope test) fun c hc => ?_
    refine meets_bind (count_statements p hd scope body) fun i hi => ?_
    refine meets_bind (count_statements p hd scope orelse) fun a ha => meets_pure ?_
    exact p.count_loop scope line rfl rfl rfl hc hi ha
  | withBlock line items body =>
    refine meets_bind (meets_mapM_forall₂ (R := fun i d => (originsOption d).count o =
      tally o ((WithItem.context i).charged p.signatures scope.className .value))
      fun i _ => p.count_expr hd scope i.context) fun hs hhs => ?_
    refine meets_bind (count_statements p hd scope body) fun i hi => meets_pure ?_
    rw [Stmt.charged_eq]
    simp [originsOption, Draft.origins, Draft.originsList_append, List.filterMap_eq_flatMap_toList,
      Draft.originsList_flatMap_toList, count_flatMap hhs, hi, Stmt.values, Stmt.blocks,
      Stmt.isCollected, List.flatMap_map]
  | tryBlock line body handlers orelse final =>
    refine meets_bind (count_statements p hd scope body) fun i hi => ?_
    refine meets_bind (count_statements p hd scope orelse) fun a ha => ?_
    refine meets_bind (count_statements p hd scope final) fun l hl => meets_pure ?_
    rw [Stmt.charged_eq]
    simp [originsOption, Draft.origins, Draft.originsList_append, hi, ha, hl, Stmt.values, Stmt.blocks,
      Stmt.isCollected]
  | ret line value =>
    cases value with
    | none => exact meets_pure (by rw [Stmt.charged_eq]; rfl)
    | some e =>
      exact meets_bind (p.count_value hd scope (s := .ret line (some e)) rfl rfl rfl) fun d h => meets_pure h
  | expr line value => exact p.count_value hd scope rfl rfl rfl
  | assign line targets value => exact p.count_value hd scope rfl rfl rfl
  | augment line target op value => exact p.count_value hd scope rfl rfl rfl
  | annotate line target typeHint value _ =>
    cases value with
    | none => exact meets_pure (by rw [Stmt.charged_eq]; rfl)
    | some e => exact p.count_value hd scope rfl rfl rfl
  | delete line targets => exact p.count_nested hd scope line rfl
  | matchCases line subject cases => exact p.count_nested hd scope line rfl
  | raise line exception cause => exact p.count_nested hd scope line rfl
  | tryGroup line body handlers orelse final => exact p.count_nested hd scope line rfl
  | assert line test message => exact p.count_nested hd scope line rfl
  | _ => exact meets_pure (by rw [Stmt.charged_eq]; rfl)
termination_by structural s

theorem count_statements (p : Program) (hd : OutsideDefaults p.signatures o) (scope : Scope)
    (ss : List Stmt) : Meets (fun _ => True) (p.statements scope ss)
      fun ds => (originsList ds).count o =
        tally o (ss.flatMap (Stmt.charged p.signatures scope.className)) := by
  cases ss with
  | nil => exact meets_pure rfl
  | cons s ss =>
    refine meets_bind (count_statement p hd scope s) fun d hd' => ?_
    refine meets_bind (count_statements p hd scope ss) fun ds hds => meets_pure ?_
    rw [Draft.originsList_append, Draft.originsList_toList, List.count_append, hd', hds,
      List.flatMap_cons, tally_append]
termination_by structural ss

end

end Program

namespace Scope

theorem map_snd_places (scope : Scope) (ss : List Stmt) : (scope.places ss).map Prod.snd = ss := by
  induction ss generalizing scope with
  | nil => rfl
  | cons s ss ih => rw [places, List.map_cons, ih]

theorem className_of_mem_places {scope : Scope} {ss : List Stmt} {q : Scope × Stmt}
    (h : q ∈ scope.places ss) : q.1.className = scope.className := by
  induction ss generalizing scope with
  | nil => cases h
  | cons s ss ih =>
    obtain rfl | h := List.mem_cons.mp h
    · unfold inside
      split <;> rfl
    · rw [ih h]
      unfold after
      split <;> rfl

end Scope

namespace Signature

/-- The calls in the body of a function that lie in no other definition, in no body of a lambda and in
no exception handler. -/
def calls (f : Signature) : List (CallSite Expr) :=
  (f.body.flatMap Stmt.expressions).flatMap Expr.calls

theorem originsList_drafts (f : Signature) : originsList f.drafts = [] := by
  rw [Draft.originsList_eq_flatMap, List.flatMap_eq_nil_iff]
  intro d hd
  obtain ⟨i, hi, rfl⟩ := List.mem_mapIdx.mp hd
  rfl

def charged (signatures : OrderedMap String Signature) (f : Signature) : List (CallSite Expr) :=
  f.body.flatMap (Stmt.charged signatures f.className)

theorem count_function (p : Program) (module : String) (f : Signature) {o : Origin}
    (hd : OutsideDefaults p.signatures o) :
    Meets (fun _ => True) (p.function module f)
      fun d => d.origins.count o = tally o (f.charged p.signatures) := by
  rw [function_eq]
  refine meets_bind (meets_mapM_forall₂ (R := fun q d =>
    (originsOption d).count o = tally o (q.2.charged p.signatures f.className)) fun q hq => ?_)
    fun ds hds => meets_pure ?_
  · have hclass : q.1.className = f.className := Scope.className_of_mem_places hq
    rw [← hclass]
    exact p.count_statement hd q.1 q.2
  · have hbody : (originsList (ds.flatMap Option.toList)).count o = tally o (f.charged p.signatures) := by
      rw [Draft.originsList_flatMap_toList, count_flatMap hds, charged]
      conv_rhs => rw [← Scope.map_snd_places f.scope f.body, List.flatMap_map]
      rfl
    change (originsList f.drafts ++ originsList _).count o = _
    rw [originsList_drafts, List.nil_append, hbody]

theorem counts_function (p : Program) (module : String) (f : Signature) {o : Origin}
    (hd : OutsideDefaults p.signatures o)
    (h : ∀ s ∈ f.body, s.Tracked p.signatures f.className o) :
    Meets (fun _ => True) (p.function module f) fun d => d.origins.count o = tally o f.calls := by
  refine (count_function p module f hd).mono fun d hd => ?_
  rw [hd, charged, calls, List.flatMap_assoc]
  exact tally_flatMap_congr fun s hs => s.tally_charged (h s hs)

end Signature

theorem Program.origins_build (p : Program) (module : String) {f : Signature}
    (hf : f ∈ p.signatures.values) {d : Draft} (hd : p.function module f = .ok d) (F : Forest) :
    ((Forest.build d).run F).1.origins = d.origins := by
  have hdefines := (meets_iff.mp (p.lowers_function module hf)).2 d hd
  exact Forest.origins_build_function (Forest.isPlainFunction_of_defines hdefines) F

theorem absent_iff {o : Origin} {e : Expr} :
    e.Absent o ↔ (∀ s ∈ e.site?, s.origin ≠ o) ∧ ∀ c ∈ e.children, c.Absent o := by
  constructor
  · intro h
    refine ⟨fun s hs => ?_, fun c hc => h.of_holds (Expr.holds_child hc)⟩
    cases e with
    | call t => exact Option.some.inj hs ▸ h t .refl
    | _ => cases hs
  · rintro ⟨hs, hc⟩ s h
    obtain h | ⟨c, hm, h⟩ := Relation.ReflTransGen.cases_head h
    · exact hs s (h ▸ rfl)
    · exact hc c hm s h

/-- The tree of a function has as many calls from somewhere as its body has, if no default value holds
one from there and none is led astray: a call that alone comes from there is once in the tree. -/
theorem count_origins_of_tracked (p : Program) (module : String) {f : Signature}
    (hf : f ∈ p.signatures.values) {d : Draft} (hd : p.function module f = .ok d) {o : Origin}
    (ho : OutsideDefaults p.signatures o) (h : ∀ s ∈ f.body, s.Tracked p.signatures f.className o)
    (F : Forest) :
    ((Forest.build d).run F).1.origins.count o = (f.calls.map CallSite.origin).count o := by
  rw [p.origins_build module hf hd F]
  exact (meets_iff.mp (Signature.counts_function p module f ho h)).2 d hd

section Dispatch

def plainCall (line : Nat) (name : String) (arguments : List Expr) : Expr :=
  .call ⟨line, .name line name .load, arguments, []⟩

/-- The statements `handle(a).done = route(load(a))` and `return make()(a) < probe() < limit()`. -/
def dispatchBody : List Stmt := [
  .assign 2 [.attribute 2 (plainCall 2 "handle" [.name 2 "a" .load]) "done"]
    (plainCall 2 "route" [plainCall 2 "load" [.name 2 "a" .load]]),
  .ret 3 (some (.compare 3 (.call ⟨3, plainCall 3 "make" [], [.name 3 "a" .load], []⟩)
    [⟨.lt, plainCall 3 "probe" []⟩, ⟨.lt, plainCall 3 "limit" []⟩]))]

def dispatch : Signature where
  key := "dispatch"
  name := "dispatch"
  className := none
  line := 1
  body := dispatchBody
  positional := ["a"]
  rest := none
  keywordOnly := []
  keywordRest := none
  defaults := {}

def dispatchProgram : Program := ⟨{ entries := [("dispatch", dispatch)] }⟩

theorem origins_calls_dispatch : dispatch.calls.map CallSite.origin =
    [(some 2, some "handle"), (some 2, some "route"), (some 2, some "load"), (some 3, some "make()"),
      (some 3, some "make"), (some 3, some "probe"), (some 3, some "limit")] := by
  unfold dispatch dispatchBody plainCall
  cbv

theorem exists_function_of_origins {p : Program} {module : String} {f : Signature} {os : List Origin}
    (h : (p.function module f).toOption.map Draft.origins = some os) :
    ∃ d, p.function module f = .ok d ∧ d.origins = os := by
  cases hd : p.function module f with
  | error e =>
    rw [hd] at h
    cases h
  | ok d =>
    rw [hd] at h
    exact ⟨d, rfl, Option.some.inj h⟩

theorem exists_function_dispatch : ∃ d, dispatchProgram.function "svc" dispatch = .ok d ∧
    d.origins = [(some 2, some "route"), (some 2, some "load"), (some 3, some "make()"),
      (some 3, some "probe"), (some 3, some "probe"), (some 3, some "limit")] := by
  apply exists_function_of_origins
  unfold dispatchProgram dispatch dispatchBody plainCall
  cbv

theorem absent_name (o : Origin) (line : Nat) (id : String) (use : NameUse) :
    (Expr.name line id use).Absent o :=
  absent_iff.mpr ⟨fun _ hs => (Option.some_ne_none _ hs.symm).elim, List.forall_mem_nil _⟩

theorem absent_call {o : Origin} {s : CallSite Expr} (hs : s.origin ≠ o)
    (hp : ∀ c ∈ s.parts, c.Absent o) : (Expr.call s).Absent o :=
  absent_iff.mpr ⟨fun _ ht => Option.some.inj ht ▸ hs, hp⟩

theorem tracked_plainCall {signatures : OrderedMap String Signature} {o : Origin} {line : Nat}
    {name : String} {arguments : List Expr} (hn : signatures.contains name = false)
    (ha : ∀ c ∈ arguments, Tracked signatures none o .value c)
    (hs : ∀ c ∈ arguments, ∀ line v, c ≠ .starred line v) (m : Mode) :
    Tracked signatures none o m (plainCall line name arguments) := by
  have hnone : CallSite.signature? signatures none ⟨line, .name line name .load, arguments, []⟩ =
      none := by
    simp [CallSite.signature?, targetKey?, hn]
  intro x hx
  cases hx with
  | function => exact absent_name o line name .load
  | displaced _ hg => simp [hnone] at hg
  | inner hp hx =>
    cases hp with
    | child he => cases he
    | argument _ hp =>
      obtain ⟨⟨e, he⟩, -, rfl⟩ := List.mem_map.mp hp
      cases e with
      | starred line v => exact absurd rfl (hs _ he line v)
      | _ => exact ha _ he x hx
    | keyword _ hk => simp [CallSite.named] at hk
    | bound hg => simp [hnone] at hg
    | spare hg => simp [hnone] at hg

theorem tracked_dispatch : ∀ s ∈ dispatchBody,
    s.Tracked dispatchProgram.signatures none (some 2, some "load") := by
  have hname (line : Nat) (id : String) := absent_name (some 2, some "load") line id .load
  have hcontains {name : String} (h : name ≠ "dispatch") :
      dispatchProgram.signatures.contains name = false := by
    simp [dispatchProgram, OrderedMap.contains, h.symm]
  refine List.forall_mem_cons.mpr ⟨?_, List.forall_mem_singleton.mpr ?_⟩
  · intro x hx
    cases hx with
    | target he =>
      obtain rfl := List.mem_singleton.mp he
      have hhandle : calleeText (.name 2 "handle" .load) = "handle" := by cbv
      refine absent_iff.mpr ⟨fun _ hs => (Option.some_ne_none _ hs.symm).elim, ?_⟩
      refine List.forall_mem_singleton.mpr (absent_call ?_ ?_)
      · simp [CallSite.origin, hhandle]
      · simp [CallSite.parts, hname]
    | value he hx =>
      obtain rfl := List.mem_singleton.mp he
      refine tracked_plainCall (hcontains (by decide)) (List.forall_mem_singleton.mpr ?_)
        (by simp [plainCall]) .value x hx
      refine tracked_plainCall (hcontains (by decide)) (List.forall_mem_singleton.mpr ?_) (by simp)
        .value
      exact (hname 2 "a").tracked .value
    | block ht => cases ht
    | collected hs => cases hs
    | handler hs => cases hs
  · -- The calls of the second statement are on another line.
    have hcall {function : Expr} {arguments : List Expr}
        (h : ∀ c ∈ CallSite.parts ⟨3, function, arguments, []⟩, c.Absent (some 2, some "load")) :
        (Expr.call ⟨3, function, arguments, []⟩).Absent (some 2, some "load") :=
      absent_call (by simp [CallSite.origin]) h
    intro x hx
    cases hx with
    | target he => cases he
    | value he hx =>
      obtain rfl := List.mem_singleton.mp he
      refine Expr.Absent.tracked (absent_iff.mpr ⟨fun _ hs => ?_, ?_⟩) .value x hx
      · exact (Option.some_ne_none _ hs.symm).elim
      · simp [Expr.children, plainCall, CallSite.parts, hcall, hname]
    | block ht => cases ht
    | collected hs => cases hs
    | handler hs => cases hs

/-- The call of `load` is one call of the tree. -/
theorem count_load_dispatch : ∃ d, dispatchProgram.function "svc" dispatch = .ok d ∧
    ((Forest.build d).run {}).1.origins.count (some 2, some "load") = 1 := by
  obtain ⟨d, hd, -⟩ := exists_function_dispatch
  have ho : OutsideDefaults dispatchProgram.signatures (some 2, some "load") := by
    intro g hg e he
    obtain rfl := List.mem_singleton.mp hg
    cases he
  refine ⟨d, hd, ?_⟩
  rw [count_origins_of_tracked dispatchProgram "svc" List.mem_cons_self hd ho tracked_dispatch {},
    origins_calls_dispatch]
  decide

/-- The calls of `handle` and `make` are lost, and the call of `probe` is there twice. -/
theorem count_stray_dispatch : ∃ d, dispatchProgram.function "svc" dispatch = .ok d ∧
    ((Forest.build d).run {}).1.origins.count (some 2, some "handle") = 0 ∧
    ((Forest.build d).run {}).1.origins.count (some 3, some "make") = 0 ∧
    ((Forest.build d).run {}).1.origins.count (some 3, some "probe") = 2 ∧
    ∀ o ∈ [(some 2, some "handle"), (some 3, some "make"), (some 3, some "probe")],
      (dispatch.calls.map CallSite.origin).count o = 1 := by
  obtain ⟨d, hd, horigins⟩ := exists_function_dispatch
  refine ⟨d, hd, ?_⟩
  rw [dispatchProgram.origins_build "svc" List.mem_cons_self hd {}, horigins, origins_calls_dispatch]
  decide

end Dispatch

end CallTime.Source

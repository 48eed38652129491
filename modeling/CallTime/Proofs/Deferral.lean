import Mathlib
import CallTime.Proofs.Translation

/-!
Calls that do not run when the function does.

The body of a lambda and everything in a definition inside the function is left for later. Main statement:
a function is charged with calls that run and with those in lambdas that lowering opens, and with no
others. A lambda that is a part of something, and any definition, is passed over; a lambda that is a whole
value or argument is opened, and the outermost calls of its body are all charged.
-/

namespace CallTime.Source

variable {signatures : OrderedMap String Signature} {className : Option String} {o : Origin}

section Tally

variable {α : Type} {as : List α}

theorem tally_flatMap_le {f g : α → List (CallSite Expr)} (h : ∀ a ∈ as, tally o (f a) ≤ tally o (g a)) :
    tally o (as.flatMap f) ≤ tally o (as.flatMap g) := by
  induction as with
  | nil => exact Nat.le_refl 0
  | cons a as ih =>
    obtain ⟨ha, has⟩ := List.forall_mem_cons.mp h
    rw [List.flatMap_cons, List.flatMap_cons, tally_append, tally_append]
    exact Nat.add_le_add ha (ih has)

theorem tally_flatMap_append (f g : α → List (CallSite Expr)) :
    tally o (as.flatMap fun a => f a ++ g a) = tally o (as.flatMap f) + tally o (as.flatMap g) := by
  induction as with
  | nil => rfl
  | cons a as ih =>
    simp only [List.flatMap_cons, tally_append, ih]
    omega

end Tally

namespace Expr

def repeated : Expr → List Expr
  | .compare _ _ rest => rest.dropLast.map (·.value)
  | _ => []

theorem mem_children_of_repeated {e c : Expr} (h : c ∈ e.repeated) : c ∈ e.children := by
  cases e with
  | compare line left rest =>
    obtain ⟨d, hd, rfl⟩ := List.mem_map.mp h
    exact List.mem_cons_of_mem left (List.mem_map_of_mem ((List.dropLast_sublist _).subset hd))
  | _ => cases h

theorem sizeOf_of_mem_run {e c : Expr} (h : c ∈ e.entered ++ e.repeated) : sizeOf c < sizeOf e :=
  sizeOf_child e c ((List.mem_append.mp h).elim mem_children_of_entered mem_children_of_repeated)

/-- The calls at or below an expression that lie in the body of no lambda. Those of an operand inside a
chain of comparisons are there for each of its two steps. -/
def runs (e : Expr) : List (CallSite Expr) :=
  e.site?.toList ++ (e.entered ++ e.repeated).attach.flatMap fun ⟨c, _⟩ => runs c
termination_by sizeOf e
decreasing_by exact sizeOf_of_mem_run ‹_›

theorem runs_eq (e : Expr) : e.runs = e.site?.toList ++ (e.entered ++ e.repeated).flatMap runs := by
  rw [runs]
  congr 1
  conv_rhs => rw [← List.attach_map_subtype_val (e.entered ++ e.repeated), List.flatMap_map]

theorem runs_starred (line : Nat) (v : Expr) : (Expr.starred line v).runs = v.runs := by
  rw [runs_eq]
  exact List.append_nil _

def opens (m : Mode) : Expr → Option Expr
  | .lambda _ _ body => if m = .part then none else some body
  | _ => none

def opened (signatures : OrderedMap String Signature) (className : Option String) (m : Mode)
    (e : Expr) : List Expr :=
  (e.visits signatures className m).filterMap fun v => v.2.opens v.1

theorem opened_eq (m : Mode) (e : Expr) : e.opened signatures className m = (e.opens m).toList ++
    (e.descents signatures className m).flatMap fun p => p.2.opened signatures className p.1 := by
  rw [opened, visits_eq, List.filterMap_cons, List.filterMap_flatMap]
  cases e.opens m <;> rfl

theorem tally_comparisonSteps_le (g : Expr → List (CallSite Expr)) (left : Expr)
    (rest : List (Comparand Expr)) :
    tally o ((comparisonSteps left rest).flatMap fun p => g p.1 ++ g p.2.2) ≤
      tally o ((left :: rest.map (·.value) ++ rest.dropLast.map (·.value)).flatMap g) := by
  induction rest generalizing left with
  | nil => exact Nat.zero_le _
  | cons c rest ih =>
    cases rest with
    | nil => simp [comparisonSteps]
    | cons c' rest =>
      have hrest := ih c.value
      rw [comparisonSteps, List.flatMap_cons]
      simp only [List.flatMap_append, List.flatMap_cons, List.map_cons, List.cons_append, tally_append,
        List.dropLast_cons_cons] at hrest ⊢
      omega

theorem tally_taken_le (m : Mode) {e : Expr} (he : e.site? = none) :
    tally o ((e.taken m).flatMap runs) ≤
      tally o ((e.entered ++ e.repeated).flatMap runs) + tally o ((e.opens m).toList.flatMap runs) := by
  cases e with
  | call s => cases he
  | compare line left rest =>
    rw [taken]
    split
    · rw [List.flatMap_assoc]
      simp only [List.flatMap_cons, List.flatMap_nil, List.append_nil]
      exact Nat.le_add_right_of_le (tally_comparisonSteps_le runs left rest)
    · rw [List.flatMap_append, tally_append]
      exact Nat.le_add_right_of_le (Nat.le_add_right _ _)
  | lambda line parameters body =>
    rw [taken, opens]
    split
    · exact Nat.zero_le _
    · simp [children, entered, repeated]
  | _ => simp [taken, entered, repeated, opens]

theorem tally_descents_le (m : Mode) (e : Expr) :
    tally o ((e.descents signatures className m).flatMap fun p => p.2.runs) ≤
      tally o ((e.entered ++ e.repeated).flatMap runs) + tally o ((e.opens m).toList.flatMap runs) := by
  obtain ⟨s, rfl⟩ | he := e.eq_call_or_site?_eq_none
  · have hparts : tally o (s.passed.flatMap (·.value.1.runs)) +
        tally o (s.named.flatMap (·.value.1.runs)) ≤
        tally o (((Expr.call s).entered ++ (Expr.call s).repeated).flatMap runs) := by
      change _ ≤ tally o ((s.parts ++ []).flatMap runs)
      rw [List.append_nil, CallSite.parts, List.flatMap_append, List.flatMap_cons, tally_append,
        tally_append, CallSite.flatMap_passed runs_starred, CallSite.flatMap_named runs]
      omega
    refine Nat.le_add_right_of_le (Nat.le_trans ?_ hparts)
    cases hs : s.signature? signatures className with
    | none => rw [CallSite.flatMap_descents_none hs, tally_append]
    | some g =>
      rw [CallSite.flatMap_descents_some hs, tally_append, ← CallSite.tally_make runs g s]
      exact Nat.le_add_right _ _
  · rw [descents_of_site?_eq_none he, List.flatMap_map]
    exact tally_taken_le m he

/-- The calls that are lowered with an expression run, or they lie in a lambda that is opened. -/
theorem tally_charged_le (m : Mode) (e : Expr) :
    tally o (e.charged signatures className m) ≤
      tally o e.runs + tally o ((e.opened signatures className m).flatMap runs) := by
  have ih : ∀ p ∈ e.descents signatures className m, tally o (p.2.charged signatures className p.1) ≤
      tally o (p.2.runs ++ (p.2.opened signatures className p.1).flatMap runs) := by
    intro p hp
    have := (descends_of_mem hp).sizeOf_lt
    rw [tally_append]
    exact tally_charged_le p.1 p.2
  have hinner := tally_flatMap_le ih
  -- a lambda runs nothing below it, so what it descends to is counted among the opened bodies
  have hparts : tally o ((e.descents signatures className m).flatMap fun p => p.2.runs) ≤
      tally o ((e.entered ++ e.repeated).flatMap runs) + tally o ((e.opens m).toList.flatMap runs) :=
    tally_descents_le m e
  have hopened : tally o ((e.opened signatures className m).flatMap runs) =
      tally o ((e.opens m).toList.flatMap runs) + tally o ((e.descents signatures className m).flatMap
        fun p => (p.2.opened signatures className p.1).flatMap runs) := by
    rw [opened_eq, List.flatMap_append, tally_append, List.flatMap_assoc]
  rw [tally_flatMap_append] at hinner
  rw [charged_eq, runs_eq, hopened, tally_append, tally_append]
  omega
termination_by sizeOf e

theorem mem_visits_self (m : Mode) (e : Expr) : (m, e) ∈ e.visits signatures className m := by
  rw [visits_eq]
  exact List.mem_cons_self

theorem visits_trans {m : Mode} {e : Expr} {v w : Mode × Expr}
    (hv : v ∈ e.visits signatures className m) (hw : w ∈ v.2.visits signatures className v.1) :
    w ∈ e.visits signatures className m := by
  rw [visits_eq] at hv ⊢
  obtain rfl | hv := List.mem_cons.mp hv
  · rwa [visits_eq] at hw
  · obtain ⟨p, hp, hv⟩ := List.mem_flatMap.mp hv
    have := (descends_of_mem hp).sizeOf_lt
    exact List.mem_cons_of_mem _ (List.mem_flatMap.mpr ⟨p, hp, visits_trans hv hw⟩)
termination_by sizeOf e

theorem charged_subset {m : Mode} {e : Expr} {v : Mode × Expr}
    (hv : v ∈ e.visits signatures className m) :
    v.2.charged signatures className v.1 ⊆ e.charged signatures className m := by
  intro s hs
  obtain ⟨w, hw, hsite⟩ := List.mem_filterMap.mp hs
  exact List.mem_filterMap.mpr ⟨w, visits_trans hv hw, hsite⟩

theorem outerCalls_subset_charged (e : Expr) : e.outerCalls ⊆ e.charged signatures className .part := by
  intro s hs
  rw [charged_part]
  refine List.mem_flatMap.mpr ⟨s, hs, ?_⟩
  rw [charged_site]
  exact List.mem_cons_self

/-- The outermost calls in a lambda that is opened are lowered. -/
theorem outerCalls_subset_of_opened {m : Mode} {e x : Expr} (h : x ∈ e.opened signatures className m) :
    x.outerCalls ⊆ e.charged signatures className m := by
  obtain ⟨⟨m', c⟩, hv, hx⟩ := List.mem_filterMap.mp h
  have hbody : (.part, x) ∈ c.visits signatures className m' := by
    cases c with
    | lambda line parameters body =>
      simp only [opens] at hx
      split at hx
      · cases hx
      · next hm =>
        obtain rfl := Option.some.inj hx
        have hbelow : m'.below (.lambda line parameters body) = .part := by
          simp [Mode.below, isCombined]
        rw [visits_eq, descents_of_site?_eq_none rfl, taken, if_neg hm, hbelow, List.flatMap_map]
        refine List.mem_cons_of_mem _ (List.mem_flatMap.mpr ⟨body, ?_, mem_visits_self .part body⟩)
        exact List.mem_append_right _ (List.mem_singleton_self body)
    | _ => cases hx
  exact List.Subset.trans (outerCalls_subset_charged x)
    (charged_subset (v := (.part, x)) (visits_trans hv hbody))

end Expr

namespace Stmt

def opened (signatures : OrderedMap String Signature) (className : Option String) (s : Stmt) : List Expr :=
  s.roots.flatMap fun r => r.2.opened signatures className r.1

theorem tally_handled_le (g : Expr → List (CallSite Expr)) (s : Stmt) :
    tally o (s.blocks.flatMap fun t => t.handled.flatMap g) ≤ tally o (s.handled.flatMap g) := by
  have hlist (ss : List Stmt) : (handledList ss).flatMap g = ss.flatMap fun t => t.handled.flatMap g := by
    induction ss with
    | nil => rfl
    | cons t ss ih => rw [handledList, List.flatMap_append, ih, List.flatMap_cons]
  cases s with
  | ifElse | whileLoop | forLoop | withBlock | tryBlock =>
    simp [blocks, handled, hlist, tally_append]
    try omega
  | _ => exact Nat.zero_le _

theorem tally_roots_le (g : Expr → List (CallSite Expr)) (s : Stmt) :
    tally o (s.roots.flatMap fun r => g r.2) ≤ tally o ((s.expressions ++ s.handled).flatMap g) := by
  have ih : ∀ t ∈ s.blocks, tally o (t.roots.flatMap fun r => g r.2) ≤
      tally o (t.expressions.flatMap g ++ t.handled.flatMap g) := by
    intro t ht
    have := sizeOf_block ht
    rw [← List.flatMap_append]
    exact tally_roots_le g t
  have hblocks := tally_flatMap_le ih
  rw [tally_flatMap_append] at hblocks
  have hhandled := s.tally_handled_le (o := o) g
  rw [roots_eq, List.flatMap_append, List.flatMap_append, List.flatMap_map, List.flatMap_assoc,
    List.flatMap_append, tally_append, tally_append, tally_append]
  cases hs : s.isCollected with
  | false =>
    have hexpressions := tally_expressions (o := o) g hs
    rw [if_neg Bool.false_ne_true, List.flatMap_nil, tally_nil]
    change tally o (s.values.flatMap g) + _ + 0 ≤ _
    omega
  | true =>
    obtain ⟨hv, hb⟩ := of_isCollected hs
    rw [if_pos rfl, hv, hb, List.flatMap_map, List.flatMap_append, tally_append]
    exact Nat.le_of_eq (Nat.zero_add _)
termination_by sizeOf s

theorem tally_charged_le (s : Stmt) :
    tally o (s.charged signatures className) ≤ tally o ((s.expressions ++ s.handled).flatMap Expr.runs) +
      tally o ((s.opened signatures className).flatMap Expr.runs) := by
  have hroots : tally o (s.charged signatures className) ≤ tally o (s.roots.flatMap
      fun r => r.2.runs ++ (r.2.opened signatures className r.1).flatMap Expr.runs) :=
    tally_flatMap_le fun r _ => by
      rw [tally_append]
      exact r.2.tally_charged_le r.1
  rw [tally_flatMap_append] at hroots
  rw [opened, List.flatMap_assoc]
  exact Nat.le_trans hroots (Nat.add_le_add_right (s.tally_roots_le Expr.runs) _)

end Stmt

namespace Signature

/-- The calls in the body of a function that lie in no other definition and in no body of a lambda. -/
def runs (f : Signature) : List (CallSite Expr) :=
  (f.body.flatMap fun s => s.expressions ++ s.handled).flatMap Expr.runs

def opened (signatures : OrderedMap String Signature) (f : Signature) : List Expr :=
  f.body.flatMap (Stmt.opened signatures f.className)

theorem tally_charged_le (f : Signature) : tally o (f.charged signatures) ≤
    tally o (f.runs ++ (f.opened signatures).flatMap Expr.runs) := by
  have hbody : tally o (f.charged signatures) ≤ tally o (f.body.flatMap fun s =>
      (s.expressions ++ s.handled).flatMap Expr.runs ++
        (s.opened signatures f.className).flatMap Expr.runs) :=
    tally_flatMap_le fun s _ => by
      rw [tally_append]
      exact s.tally_charged_le
  rw [tally_flatMap_append] at hbody
  rwa [runs, opened, List.flatMap_assoc, List.flatMap_assoc, tally_append]

theorem outerCalls_subset_of_opened {f : Signature} {x : Expr} (h : x ∈ f.opened signatures) :
    x.outerCalls ⊆ f.charged signatures := by
  intro c hc
  obtain ⟨s, hs, h⟩ := List.mem_flatMap.mp h
  obtain ⟨r, hr, h⟩ := List.mem_flatMap.mp h
  exact List.mem_flatMap.mpr
    ⟨s, hs, List.mem_flatMap.mpr ⟨r, hr, Expr.outerCalls_subset_of_opened h hc⟩⟩

end Signature

/-- A function is charged with calls from somewhere no more often than calls from there run in it or stand
in a lambda that is opened; and with every outermost call in a lambda that is opened it is charged. -/
theorem count_origins_deferred (p : Program) (module : String) {f : Signature}
    (hf : f ∈ p.signatures.values) {d : Draft} (hd : p.function module f = .ok d) {o : Origin}
    (ho : OutsideDefaults p.signatures o) (F : Forest) :
    ((Forest.build d).run F).1.origins.count o ≤
        ((f.runs ++ (f.opened p.signatures).flatMap Expr.runs).map CallSite.origin).count o ∧
      ∀ x ∈ f.opened p.signatures, ∀ s ∈ x.outerCalls, s.origin = o →
        o ∈ ((Forest.build d).run F).1.origins := by
  have hcount := (meets_iff.mp (Signature.count_function p module f ho)).2 d hd
  rw [p.origins_build module hf hd F]
  refine ⟨hcount ▸ f.tally_charged_le, ?_⟩
  rintro x hx s hs rfl
  rw [← List.count_pos_iff, hcount, tally, List.count_pos_iff]
  exact List.mem_map_of_mem (Signature.outerCalls_subset_of_opened hx hs)

section Schedule

/-- The statement `hooks = [fire(task), lambda: fire(task)]`, a function inside that calls `fire` again, and
the statement `return lambda: settle(task)`. -/
def scheduleBody : List Stmt := [
  .assign 2 [.name 2 "hooks" .store] (.list 2 [plainCall 2 "fire" [.name 2 "task" .load],
    .lambda 2 {} (plainCall 2 "fire" [.name 2 "task" .load])]),
  .functionDef 3 "retry" {} [.ret 4 (some (plainCall 4 "fire" [.name 4 "task" .load]))],
  .ret 5 (some (.lambda 5 {} (plainCall 5 "settle" [.name 5 "task" .load])))]

def schedule : Signature where
  key := "schedule"
  name := "schedule"
  className := none
  line := 1
  body := scheduleBody
  positional := ["task"]
  rest := none
  keywordOnly := []
  keywordRest := none
  defaults := {}

def scheduleProgram : Program := ⟨{ entries := [("schedule", schedule)] }⟩

theorem opened_schedule : schedule.opened scheduleProgram.signatures =
    [plainCall 5 "settle" [.name 5 "task" .load]] := by
  unfold scheduleProgram schedule scheduleBody plainCall
  cbv

theorem origins_runs_schedule : schedule.runs.map CallSite.origin = [(some 2, some "fire")] := by
  unfold schedule scheduleBody plainCall
  cbv

theorem exists_function_schedule : ∃ d, scheduleProgram.function "svc" schedule = .ok d ∧
    d.origins = [(some 2, some "fire"), (some 5, some "settle")] := by
  apply exists_function_of_origins
  unfold scheduleProgram schedule scheduleBody plainCall
  cbv

/-- Of the calls of `fire` one is charged, and the call of `settle` is charged too. -/
theorem count_fire_schedule : ∃ d, scheduleProgram.function "svc" schedule = .ok d ∧
    ((Forest.build d).run {}).1.origins.count (some 2, some "fire") ≤ 1 ∧
    ((Forest.build d).run {}).1.origins.count (some 4, some "fire") = 0 ∧
    (some 5, some "settle") ∈ ((Forest.build d).run {}).1.origins := by
  obtain ⟨d, hd, -⟩ := exists_function_schedule
  have ho (o : Origin) : OutsideDefaults scheduleProgram.signatures o := by
    intro g hg e he
    obtain rfl := List.mem_singleton.mp hg
    cases he
  have hsettle : CallSite.origin ⟨5, .name 5 "settle" .load, [.name 5 "task" .load], []⟩ =
      (some 5, some "settle") := by
    cbv
  have hruns : (schedule.runs ++ (schedule.opened scheduleProgram.signatures).flatMap Expr.runs).map
      CallSite.origin = [(some 2, some "fire"), (some 5, some "settle")] := by
    rw [opened_schedule, List.map_append, origins_runs_schedule]
    unfold plainCall
    cbv
  have h (o : Origin) := count_origins_deferred scheduleProgram "svc" List.mem_cons_self hd (ho o) {}
  rw [hruns, opened_schedule] at h
  refine ⟨d, hd, (h _).1, Nat.le_zero.mp (h _).1, ?_⟩
  exact (h _).2 _ (List.mem_singleton_self _) _ (List.mem_singleton_self _) hsettle

/-- The call of `settle` runs when the lambda is called, and the function is charged with it. -/
theorem count_settle_schedule : ∃ d, scheduleProgram.function "svc" schedule = .ok d ∧
    ((Forest.build d).run {}).1.origins.count (some 5, some "settle") = 1 ∧
    (schedule.runs.map CallSite.origin).count (some 5, some "settle") = 0 := by
  obtain ⟨d, hd, horigins⟩ := exists_function_schedule
  refine ⟨d, hd, ?_⟩
  rw [scheduleProgram.origins_build "svc" List.mem_cons_self hd {}, horigins, origins_runs_schedule]
  decide

end Schedule

end CallTime.Source

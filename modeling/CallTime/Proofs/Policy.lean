import CallTime.Proofs.Footprint
import CallTime.Proofs.Steps

/-!
Analyses that differ in when they enter a called function.

A policy says whether a called function is analysed on the way. Main statements: with the policy of the
analysis one gets what the analysis gives, and whatever the policy is, a run writes only where the
analysis may.

A run under a policy keeps its stack when it fails, so that it tells which functions were under analysis
then.
-/

namespace CallTime

abbrev Policy := Artifact → Function → Run Bool

namespace Run

open Analysis

variable {α β : Type}

/-- Runs `body` with `f` on the stack and takes it off again unless `body` fails. -/
def inside (f : Function) (body : Run Unit) : Run Unit := fun s =>
  match body { s with stack := f :: s.stack } with
  | (.ok a, t) => (.ok a, { t with stack := t.stack.tail })
  | (.error e, t) => (.error e, t)

/-- The second one does the same, but it may leave another stack behind when it fails. -/
def Like (x y : Run α) : Prop :=
  ∀ s, ∃ stack, y s = ((x s).1, { (x s).2 with stack }) ∧
    ∀ a, (x s).1 = .ok a → stack = (x s).2.stack

variable {x y : Run α} {f g : α → Run β}

theorem Like.refl (x : Run α) : Like x x := fun s => ⟨(x s).2.stack, rfl, fun _ _ => rfl⟩

theorem Like.of_ok (h : Like x y) {s t : State} {a : α} (hx : x s = (.ok a, t)) :
    y s = (.ok a, t) := by
  obtain ⟨stack, hy, hs⟩ := h s
  rw [hy, hs a (by rw [hx]), hx]

theorem Like.of_error (h : Like x y) {s t : State} {e : Fault} (hx : x s = (.error e, t)) :
    ∃ stack, y s = (.error e, { t with stack }) := by
  obtain ⟨stack, hy, -⟩ := h s
  exact ⟨stack, by rw [hy, hx]⟩

theorem Like.bind (hx : Like x y) (hf : ∀ a, Like (f a) (g a)) : Like (x >>= f) (y >>= g) := by
  intro s
  rcases hs : x s with ⟨e | a, t⟩
  · obtain ⟨stack, hy⟩ := hx.of_error hs
    rw [bind_of_error hs, bind_of_error hy]
    refine ⟨stack, rfl, fun _ h => ?_⟩
    cases h
  · rw [bind_of_ok hs, bind_of_ok (hx.of_ok hs)]
    exact hf a t

theorem Like.ite {c : Prop} [Decidable c] {x' y' : Run α} (h : Like x y) (h' : Like x' y') :
    Like (if c then x else x') (if c then y else y') := by
  split
  · exact h
  · exact h'

theorem Like.forM {f g : α → Run Unit} {as : List α} (h : ∀ a ∈ as, Like (f a) (g a)) :
    Like (as.forM f) (as.forM g) := by
  induction as with
  | nil => exact .refl _
  | cons a as ih =>
    exact (h a List.mem_cons_self).bind fun _ => ih fun b hb => h b (List.mem_cons_of_mem a hb)

theorem Like.inside {x y : Run Unit} (h : Like x y) (k : Function) : Like (within k x) (inside k y) := by
  intro s
  rw [within_apply, Run.inside]
  rcases hx : x { s with stack := k :: s.stack } with ⟨e | a, t⟩
  · obtain ⟨stack, hy⟩ := h.of_error hx
    rw [hy]
    refine ⟨stack, rfl, fun _ h => ?_⟩
    cases h
  · rw [h.of_ok hx]
    exact ⟨_, rfl, fun _ _ => rfl⟩

theorem respects_inside {R : State → State → Prop} (F : Frame R)
    (hstack : ∀ s stack, R s { s with stack }) (k : Function) {body : Run Unit}
    (h : Respects R body) : Respects R (inside k body) := by
  intro s
  have hb := F.trans (hstack s (k :: s.stack)) (h { s with stack := k :: s.stack })
  rw [inside]
  rcases hx : body { s with stack := k :: s.stack } with ⟨e | a, t⟩ <;> rw [hx] at hb
  · exact hb
  · exact F.trans hb (hstack t _)

def Silent (x : Run α) : Prop := ∀ s, ∃ r es, x s = (r, { s with events := es })

theorem silent_pure (a : α) : Silent (pure a : Run α) := fun s => ⟨.ok a, s.events, rfl⟩

theorem silent_lift (r : Except Fault α) : Silent (liftM r : Run α) := fun s => ⟨r, s.events, rfl⟩

theorem silent_insights : Silent insights := fun s => ⟨.ok s.insights, s.events, rfl⟩

theorem silent_isActive (f : Function) : Silent (isActive f) := fun s => ⟨_, s.events, rfl⟩

theorem silent_log (source message : String) : Silent (log source message) := fun _ => ⟨_, _, rfl⟩

theorem silent_bind (hx : Silent x) (hf : ∀ a, Silent (f a)) : Silent (x >>= f) := by
  intro s
  obtain ⟨r, es, h⟩ := hx s
  cases r with
  | error e => exact ⟨.error e, es, bind_of_error h f⟩
  | ok a =>
    obtain ⟨r, es', h'⟩ := hf a { s with events := es }
    exact ⟨r, es', (bind_of_ok h f).trans h'⟩

theorem silent_ite {c : Prop} [Decidable c] (hx : Silent x) (hy : Silent y) :
    Silent (if c then x else y) := by
  split
  · exact hx
  · exact hy

end Run

namespace Analysis

open Run

variable {choose : Policy} {setup : Setup}

def approachBy (choose : Policy) (forest : Forest) (call : Artifact) (g : Function) : Run Bool := do
  propagate forest call g
  if ← choose call g then return true
  let _ ← Run.pathsOf forest g
  return false

def visitBy (choose : Policy) (setup : Setup) (enter : Function → Run Unit) (a : Artifact) (p : Pass) :
    Run Unit :=
  match p.callee? setup.forest a with
  | none => visit setup enter a p
  | some g => do
    if ← approachBy choose setup.forest a g then enter g
    settle setup a g

def visitFromBy (choose : Policy) (setup : Setup) (enter : Function → Run Unit) (root : NodeId) :
    List Artifact → Run Unit
  | [] => pure ()
  | a :: pending =>
    match nested? root a with
    | some g => do
      enter g
      visitFromBy choose setup enter root pending
    | none => do
      Run.tick 1
      (setup.passes.filter (!·.overPaths)).forM (visitBy choose setup enter a)
      visitFromBy choose setup enter root (a.children ++ pending)
termination_by pending => Artifact.sizeList pending
decreasing_by
  · have := Artifact.size_eq_children a
    simp only [Artifact.sizeList]; omega
  · simp [Artifact.sizeList, Artifact.size_eq_children a]

def analyzeFunctionBy (choose : Policy) (setup : Setup) : (depth : Nat) → Function → Run Unit
  | 0, f => do
    Run.record (.entered f)
    let _ ← Run.pathsOf setup.forest f
  | depth + 1, f => do
    if ← begin setup f then
      Run.inside f do
        visitFromBy choose setup (analyzeFunctionBy choose setup depth) f.id [f.artifact]
        (setup.passes.filter (·.overPaths)).forM (visitPaths f)

def analyzeBy (choose : Policy) (setup : Setup) (a : Artifact) : Run (Option (List Path)) :=
  let enter := analyzeFunctionBy choose setup (functionCount setup.forest)
  match Function.ofArtifact? a with
  | some f => do
    enter f
    return (← Run.insights).paths? f
  | none => do
    visitFromBy choose setup enter a.id [a]
    return none

theorem like_visit {enter enter' : Function → Run Unit} (he : ∀ g, Like (enter g) (enter' g))
    (a : Artifact) (p : Pass) :
    Like (visit setup enter a p) (visitBy (shouldAnalyze setup) setup enter' a p) := by
  unfold visitBy
  cases h : p.callee? setup.forest a with
  | none =>
    simp only
    rw [visit_of_callee?_eq_none h enter enter']
    exact .refl _
  | some g =>
    rw [visit_of_callee?_eq_some h]
    exact Like.bind (.refl (approach setup a g)) fun _ =>
      ((he g).bind fun _ => .refl _).ite (.refl _)

theorem like_visitFrom {enter enter' : Function → Run Unit} (he : ∀ g, Like (enter g) (enter' g))
    (root : NodeId) (pending : List Artifact) :
    Like (visitFrom setup enter root pending)
      (visitFromBy (shouldAnalyze setup) setup enter' root pending) := by
  induction pending using visitFrom.induct root with
  | case1 =>
    rw [visitFrom, visitFromBy]
    exact .refl _
  | case2 a pending g hg ih =>
    rw [visitFrom, visitFromBy, hg]
    exact (he g).bind fun _ => ih
  | case3 a pending hg ih =>
    rw [visitFrom, visitFromBy, hg]
    exact Like.bind (.refl _) fun _ => (Like.forM fun p _ => like_visit he a p).bind fun _ => ih

theorem like_analyzeFunction (setup : Setup) (depth : Nat) (f : Function) :
    Like (analyzeFunction setup depth f) (analyzeFunctionBy (shouldAnalyze setup) setup depth f) := by
  induction depth generalizing f with
  | zero => exact .refl _
  | succ depth ih =>
    refine Like.bind (.refl _) fun _ => Like.ite (Like.inside ?_ f) (.refl _)
    exact (like_visitFrom ih f.id [f.artifact]).bind fun _ => .refl _

theorem analyze_eq (setup : Setup) {clock : Clock}
    (hc : Clock.forLimit setup.settings.maxTicks = .ok clock)
    (insights : Insights) (a : Artifact) :
    (analyze setup insights a).result =
        (analyzeBy (shouldAnalyze setup) setup a { insights, clock }).1 ∧
      (analyze setup insights a).insights =
        (analyzeBy (shouldAnalyze setup) setup a { insights, clock }).2.insights := by
  have like : ∀ {x y : Run (Option (List Path))}, Like x y → ∀ s : State,
      (x s).1 = (y s).1 ∧ (x s).2.insights = (y s).2.insights := by
    intro x y h s
    obtain ⟨stack, hy, -⟩ := h s
    rw [hy]
    exact ⟨rfl, rfl⟩
  rw [analyze, hc, analyzeBy]
  cases Function.ofArtifact? a with
  | none => exact like ((like_visitFrom (like_analyzeFunction setup _) a.id [a]).bind fun _ => .refl _) _
  | some f => exact like ((like_analyzeFunction setup _ f).bind fun _ => .refl _) _

section Respects

variable {R : State → State → Prop}

def Quiet (choose : Policy) : Prop := ∀ call g, Silent (choose call g)

theorem respects_of_quiet (F : Frame R) (hq : Quiet choose) (call : Artifact) (g : Function) :
    Respects R (choose call g) := by
  intro s
  obtain ⟨r, es, h⟩ := hq call g s
  rw [h]
  exact F.events s es

theorem respects_visitBy (F : Frame R) (hq : Quiet choose) {a : Artifact}
    (A : Allows R setup a) {enter : Function → Run Unit}
    (he : ∀ g, setup.forest.target? a = some g → Respects R (enter g)) (p : Pass) :
    Respects R (visitBy choose setup enter a p) := by
  unfold visitBy
  cases h : p.callee? setup.forest a with
  | none => exact respects_visit_of_callee?_eq_none F A.mark h enter
  | some g =>
    have ht := target?_of_callee? h
    have hs := A.settle g ht
    have happroach : Respects R (approachBy choose setup.forest a g) := by
      refine respects_bind F (A.arguments g ht) fun _ => ?_
      refine respects_bind F (respects_of_quiet F hq a g) fun _ => ?_
      refine respects_ite (respects_pure F _) ?_
      exact respects_bind F (A.paths g ht) fun _ => respects_pure F _
    refine respects_bind F happroach fun _ => ?_
    exact respects_ite (respects_bind F (he g ht) fun _ => hs) hs

theorem respects_visitFromBy (F : Frame R) (hq : Quiet choose) {enter : Function → Run Unit}
    (root : NodeId) (pending : List Artifact)
    (A : ∀ a ∈ Artifact.walkFrom pending, Allows R setup a)
    (he : ∀ a ∈ Artifact.walkFrom pending, ∀ g, setup.forest.target? a = some g ∨ g.artifact = a →
      Respects R (enter g)) :
    Respects R (visitFromBy choose setup enter root pending) := by
  induction pending using visitFromBy.induct root with
  | case1 =>
    rw [visitFromBy]
    exact respects_pure F _
  | case2 a pending g hg ih =>
    rw [Artifact.walkFrom_cons] at A he
    have ha := List.mem_append_left (Artifact.walkFrom pending) a.mem_walk_self
    rw [visitFromBy, hg]
    refine respects_bind F (he a ha g (.inr (artifact_of_nested? hg))) fun _ => ?_
    exact ih (fun b hb => A b (List.mem_append_right _ hb)) fun b hb =>
      he b (List.mem_append_right _ hb)
  | case3 a pending hg ih =>
    rw [Artifact.walkFrom] at A he
    rw [visitFromBy, hg]
    refine respects_bind F (respects_tick F 1) fun _ => ?_
    refine respects_bind F (respects_forM F fun p _ => respects_visitBy F hq (A a List.mem_cons_self)
      (fun g hg => he a List.mem_cons_self g (.inl hg)) p) fun _ => ?_
    exact ih (fun b hb => A b (List.mem_cons_of_mem a hb)) fun b hb => he b (List.mem_cons_of_mem a hb)

end Respects

theorem spares_visitBy (hq : Quiet choose) {enter : Function → Run Unit}
    (he : ∀ g, Respects (Spares (setup.forest.Touches [g.artifact])) (enter g)) (a : Artifact) (p : Pass) :
    Respects (Spares (setup.forest.Touches [a])) (visitBy choose setup enter a p) := by
  have ha : a ∈ Artifact.walkFrom [a] := Artifact.mem_walkFrom_of_mem List.mem_cons_self
  exact respects_visitBy frame_spares hq (allows_touches ha)
    (fun g hg s => (he g s).mono fun _ _ hT => hT.call ha hg) p

theorem spares_visitFromBy (hq : Quiet choose) (setup : Setup) {enter : Function → Run Unit}
    (he : ∀ g, Respects (Spares (setup.forest.Touches [g.artifact])) (enter g)) (root : NodeId)
    (pending : List Artifact) :
    Respects (Spares (setup.forest.Touches pending))
      (visitFromBy choose setup enter root pending) := by
  refine respects_visitFromBy frame_spares hq root pending (fun a ha => allows_touches ha)
    fun a ha g hg s => (he g s).mono fun i k ht => ?_
  obtain hg | rfl := hg
  · exact ht.call ha hg
  · exact ht.mono fun b hb => Artifact.mem_walkFrom_of_mem_walk ha hb

theorem spares_analyzeFunctionBy (hq : Quiet choose) (setup : Setup) (depth : Nat) (f : Function) :
    Respects (Spares (setup.forest.Touches [f.artifact])) (analyzeFunctionBy choose setup depth f) := by
  induction depth generalizing f with
  | zero =>
    refine respects_bind frame_spares (respects_record frame_spares _) fun _ => ?_
    exact respects_bind frame_spares (respects_pathsOf frame_spares _ (tolerates_spares
      (.inl ⟨by decide, f.artifact, f.artifact.mem_walk_self, rfl⟩))) fun _ => respects_pure frame_spares _
  | succ depth ih =>
    have hown : ∀ k, k ≠ .callArgs → Tolerates (Spares (setup.forest.Touches [f.artifact])) f.id k :=
      fun k hk => tolerates_spares (.inl ⟨hk, f.artifact, f.artifact.mem_walk_self, rfl⟩)
    refine respects_bind frame_spares (respects_begin frame_spares setup (hown _ (by decide))
      (hown _ (by decide))) fun _ => ?_
    refine respects_ite (respects_inside frame_spares (fun _ _ _ _ _ => rfl) f ?_)
      (respects_pure frame_spares _)
    refine respects_bind frame_spares (spares_visitFromBy hq setup ih f.id [f.artifact]) fun _ => ?_
    exact respects_forM frame_spares fun p _ =>
      respects_visitPaths frame_spares (hown _ (by decide)) p

/-- At a call that is not marked, of a function that is not under analysis, the policy leaves out only a
function that is up to date, and it fails only where the arguments have no values. -/
structure Honest (choose : Policy) : Prop where
  quiet : Quiet choose
  leaves : ∀ call g (s : State), s.insights.recursive? call.id = none →
    s.stack.any (·.id = g.id) = false → ∀ t, choose call g s = (.ok false, t) →
      upToDate s.insights g = .ok true
  fails : ∀ call g (s : State), s.insights.recursive? call.id = none →
    s.stack.any (·.id = g.id) = false → ∀ e t, choose call g s = (.error e, t) →
      Signature.of (s.insights.effectiveArgs g) = .error e

theorem upToDate_eq_error {insights : Insights} {g : Function} {e : Fault}
    (h : upToDate insights g = .error e) : Signature.of (insights.effectiveArgs g) = .error e := by
  unfold upToDate at h
  split at h
  · cases h
  · split at h
    · cases hs : Signature.of (insights.effectiveArgs g) <;> rw [hs] at h <;> cases h
      rfl
    · cases h

theorem upToDate_eq_true {insights : Insights} {g : Function} (h : upToDate insights g = .ok true) :
    ∃ paths τ τ', insights.paths? g = some paths ∧ paths.all (Path.has .pathDuration) = true ∧
      insights.analyzedArgs? g = some τ ∧ Signature.of (insights.effectiveArgs g) = .ok τ' ∧
      τ.agrees τ' = true := by
  unfold upToDate at h
  split at h
  · cases h
  · next paths hp =>
    split at h
    · next hall =>
      cases hs : Signature.of (insights.effectiveArgs g) with
      | error e =>
        rw [hs] at h
        cases h
      | ok τ' =>
        rw [hs] at h
        cases hτ : insights.analyzedArgs? g with
        | none =>
          rw [hτ] at h
          cases h
        | some τ =>
          rw [hτ] at h
          exact ⟨paths, τ, τ', hp, hall, rfl, rfl, Except.ok.inj h⟩
    · cases h

theorem silent_shouldAnalyze (setup : Setup) (call : Artifact) (g : Function) :
    Silent (shouldAnalyze setup call g) := by
  refine silent_ite (silent_pure _) (silent_bind silent_insights fun _ => ?_)
  refine silent_bind (silent_lift _) fun _ => silent_ite (silent_pure _) ?_
  refine silent_bind (silent_isActive g) fun _ => silent_ite ?_ ?_
  · exact silent_bind (silent_log _ _) fun _ => silent_pure _
  · refine silent_bind silent_insights fun known => ?_
    split
    · exact silent_pure _
    · refine silent_ite (silent_pure _) (silent_bind (silent_lift _) fun _ => ?_)
      have hlog := silent_bind (silent_log callSource
        (g.qualified ++ " was analyzed for other arguments")) fun _ => silent_pure true
      split
      · exact silent_ite (silent_pure _) hlog
      · exact hlog

theorem honest_shouldAnalyze (setup : Setup) (hon : setup.settings.analyzeResolved = true) :
    Honest (shouldAnalyze setup) where
  quiet := silent_shouldAnalyze setup
  leaves call g s hm ha t h := by
    obtain ⟨es, hs⟩ := shouldAnalyze_apply hon hm ha
    have hr : (upToDate s.insights g).map (!·) = .ok false := congrArg Prod.fst (hs.symm.trans h)
    cases hu : upToDate s.insights g with
    | error e =>
      rw [hu] at hr
      cases hr
    | ok b =>
      rw [hu] at hr
      cases b
      · cases hr
      · rfl
  fails call g s hm ha e t h := by
    obtain ⟨es, hs⟩ := shouldAnalyze_apply hon hm ha
    have hr : (upToDate s.insights g).map (!·) = .error e := congrArg Prod.fst (hs.symm.trans h)
    refine upToDate_eq_error ?_
    cases hu : upToDate s.insights g with
    | error e' =>
      rw [hu] at hr
      exact hr
    | ok b =>
      rw [hu] at hr
      cases hr

def always : Policy := fun _ _ => pure true

theorem honest_always : Honest always where
  quiet _ _ := silent_pure true
  leaves _ _ _ _ _ _ h := by cases h
  fails _ _ _ _ _ _ _ h := by cases h

end Analysis

end CallTime

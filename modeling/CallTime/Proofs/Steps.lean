import CallTime.Proofs.Enumeration
import CallTime.Proofs.Run

/-!
What single steps of a run give back, in the states that matter.
-/

namespace CallTime

namespace Run

open Analysis

variable {α β : Type} {x : Run α} {f : α → Run β} {s t : State} {Q Q' : α → State → Prop}
  {R R' : Fault → State → Prop} {S : β → State → Prop}

/-- The computation ends with `Q`, or it fails with `R`. -/
def Ends (x : Run α) (s : State) (Q : α → State → Prop) (R : Fault → State → Prop) : Prop :=
  match x s with
  | (.ok a, t) => Q a t
  | (.error e, t) => R e t

theorem ends_of_ok {a : α} (h : x s = (.ok a, t)) (hQ : Q a t) : Ends x s Q R := by
  rw [Ends, h]
  exact hQ

theorem ends_of_error {e : Fault} (h : x s = (.error e, t)) (hR : R e t) : Ends x s Q R := by
  rw [Ends, h]
  exact hR

theorem ends_pure {a : α} (h : Q a s) : Ends (pure a) s Q R := h

theorem ends_bind (hx : Ends x s Q R) (hf : ∀ a t, Q a t → Ends (f a) t S R) :
    Ends (x >>= f) s S R := by
  unfold Ends at hx ⊢
  rw [bind_apply]
  rcases h : x s with ⟨e | a, t⟩ <;> rw [h] at hx
  · exact hx
  · exact hf a t hx

theorem ends_bind_of_ok {a : α} (h : x s = (.ok a, t)) (hf : Ends (f a) t S R) :
    Ends (x >>= f) s S R := by
  rw [Ends, bind_of_ok h]
  exact hf

theorem Ends.mono (hx : Ends x s Q R) (hQ : ∀ a t, Q a t → Q' a t) (hR : ∀ e t, R e t → R' e t) :
    Ends x s Q' R' := by
  unfold Ends at hx ⊢
  rcases h : x s with ⟨e | a, t⟩ <;> rw [h] at hx
  · exact hR e t hx
  · exact hQ a t hx

theorem Ends.and_respects {T : State → State → Prop} (hx : Ends x s Q R) (hr : Respects T x) :
    Ends x s (fun a t => Q a t ∧ T s t) R := by
  have h := hr s
  unfold Ends at hx ⊢
  rcases hs : x s with ⟨e | a, t⟩ <;> rw [hs] at hx h
  · exact hx
  · exact ⟨hx, h⟩

variable {E : Fault → Prop}

/-- The computation ends with `Q`, or it fails in a way that `E` allows. -/
def Yields (E : Fault → Prop) (x : Run α) (s : State) (Q : α → State → Prop) : Prop :=
  match x s with
  | (.ok a, t) => Q a t
  | (.error e, _) => E e

theorem yields_iff_ends : Yields E x s Q ↔ Ends x s Q fun e _ => E e := Iff.rfl

theorem yields_of_ok {a : α} (h : x s = (.ok a, t)) (hQ : Q a t) : Yields E x s Q :=
  yields_iff_ends.mpr (ends_of_ok h hQ)

theorem yields_of_error {e : Fault} (h : x s = (.error e, t)) (hE : E e) : Yields E x s Q :=
  yields_iff_ends.mpr (ends_of_error h hE)

theorem yields_pure {a : α} (hQ : Q a s) : Yields E (pure a) s Q := hQ

theorem yields_bind (hx : Yields E x s Q) (hf : ∀ a t, Q a t → Yields E (f a) t S) :
    Yields E (x >>= f) s S :=
  yields_iff_ends.mpr (ends_bind (yields_iff_ends.mp hx) fun a t h => yields_iff_ends.mp (hf a t h))

theorem yields_bind_of_ok {a : α} (h : x s = (.ok a, t)) (hf : Yields E (f a) t S) :
    Yields E (x >>= f) s S :=
  yields_iff_ends.mpr (ends_bind_of_ok h (yields_iff_ends.mp hf))

theorem Yields.mono (hx : Yields E x s Q) (h : ∀ a t, Q a t → Q' a t) : Yields E x s Q' :=
  yields_iff_ends.mpr ((yields_iff_ends.mp hx).mono h fun _ _ he => he)

theorem Yields.and_respects {T : State → State → Prop} (hx : Yields E x s Q) (hr : Respects T x) :
    Yields E x s fun a t => Q a t ∧ T s t :=
  yields_iff_ends.mpr ((yields_iff_ends.mp hx).and_respects hr)

theorem yields_within {body : Run Unit} {g : Function} {Q : Unit → State → Prop}
    (h : Yields E body { s with stack := g :: s.stack } fun a t =>
      Q a { t with stack := t.stack.tail }) : Yields E (within g body) s Q := by
  unfold Yields at h ⊢
  rw [within_apply]
  rcases hb : body { s with stack := g :: s.stack } with ⟨e | a, t⟩ <;> rw [hb] at h <;> exact h

theorem mapM_lift_apply (g : α → Except Fault β) (as : List α) (s : State) :
    (as.mapM fun a => (liftM (g a) : Run β)) s = (as.mapM g, s) := by
  induction as with
  | nil => rfl
  | cons a as ih =>
    rw [List.mapM_cons, List.mapM_cons, bind_apply, lift_apply]
    cases g a with
    | error e => rfl
    | ok b =>
      simp only
      rw [bind_apply, ih]
      cases as.mapM g <;> rfl

theorem forM_log_apply (source : String) (messages : List String) (s : State) :
    ∃ es, messages.forM (log source ·) s = (.ok (), { s with events := es }) := by
  induction messages generalizing s with
  | nil => exact ⟨s.events, rfl⟩
  | cons message messages ih =>
    obtain ⟨es, h⟩ := ih { s with events := s.events.push (.logged ⟨.debug, source, message⟩) }
    exact ⟨es, h⟩

theorem tick_apply (n : Nat) (s : State) {m : Int} (h : s.clock = .unbounded m) :
    tick n s = (.ok (), { s with clock := .unbounded (m + n) }) := by
  obtain ⟨insights, clock, stack, events⟩ := s
  obtain rfl : clock = _ := h
  rfl

theorem pathsOf_of_some (forest : Forest) {f : Function} {s : State} {paths : List Path}
    (h : s.insights.paths? f = some paths) : pathsOf forest f s = (.ok paths, s) := by
  rw [pathsOf, bind_of_ok (insights_apply s), h]
  rfl

/-- The paths are read if they are there, and else built and noted. -/
theorem pathsOf_cases (forest : Forest) (f : Function) (s : State) :
    (∃ paths, s.insights.paths? f = some paths ∧ pathsOf forest f s = (.ok paths, s)) ∨
      s.insights.paths? f = none ∧
        ((∃ e clock, Path.enumerate forest f s.clock = (.error e, clock) ∧
            pathsOf forest f s = (.error e, { s with clock })) ∨
          ∃ paths clock events, Path.enumerate forest f s.clock = (.ok paths, clock) ∧
            pathsOf forest f s =
              (.ok paths, { s.put f.id .paths (.note (.paths paths)) with clock, events })) := by
  cases h : s.insights.paths? f with
  | some paths => exact .inl ⟨paths, rfl, pathsOf_of_some forest h⟩
  | none =>
    refine .inr ⟨rfl, ?_⟩
    have ht : timed (Path.enumerate forest f) s = ((Path.enumerate forest f s.clock).1,
        ({ s with clock := (Path.enumerate forest f s.clock).2 } : State)) := rfl
    rcases he : Path.enumerate forest f s.clock with ⟨e | paths, clock⟩ <;> rw [he] at ht
    · refine .inl ⟨e, clock, rfl, ?_⟩
      rw [pathsOf, bind_of_ok (insights_apply s), h]
      exact bind_of_error ht _
    · obtain ⟨es, hs⟩ := set_apply f.id .paths (.note (.paths paths)) { s with
        clock, events := s.events.push (.logged (Path.builtMessage f paths)) }
      refine .inr ⟨paths, clock, es, rfl, ?_⟩
      rw [pathsOf, bind_of_ok (insights_apply s), h]
      simp only
      rw [bind_of_ok ht, bind_of_ok (record_apply _ _), bind_of_ok hs]
      rfl

theorem pathsOf_of_none {forest : Forest} {f : Function} {s : State} {paths : List Path} {m : Int}
    (h : s.insights.paths? f = none) (hm : s.clock = .unbounded m)
    (hg : Timed.Gives (Path.enumerate forest f) paths) :
    ∃ k es, pathsOf forest f s = (.ok paths, { s.put f.id .paths (.note (.paths paths)) with
      clock := .unbounded k, events := es }) := by
  obtain ⟨k, hk⟩ := hg
  have he := hk m
  rw [← hm] at he
  obtain ⟨_, hs, -⟩ | ⟨-, ⟨e, c, hc, -⟩ | ⟨paths', c, es, hc, hp⟩⟩ := pathsOf_cases forest f s
  · rw [h] at hs
    cases hs
  · rw [he] at hc
    cases hc
  · rw [he] at hc
    cases hc
    exact ⟨m + k, es, hp⟩

end Run

namespace Analysis

open Run

variable {setup : Setup} {s : State}

/-- The paths of the function are there, each with a duration, and they were computed for its present
arguments. -/
def upToDate (insights : Insights) (g : Function) : Except Fault Bool :=
  match insights.paths? g with
  | none => .ok false
  | some paths =>
    if paths.all (Path.has .pathDuration) then do
      let current ← Signature.of (insights.effectiveArgs g)
      return (insights.analyzedArgs? g).any (·.agrees current)
    else .ok false

theorem upToDate_of_signature {insights : Insights} {g : Function} {σ : Signature}
    (h : Signature.of (insights.effectiveArgs g) = .ok σ) :
    ∃ b, upToDate insights g = .ok b ∧ (b = true → ∃ paths τ, insights.paths? g = some paths ∧
      insights.analyzedArgs? g = some τ ∧ τ.agrees σ = true) := by
  unfold upToDate
  cases hp : insights.paths? g with
  | none => exact ⟨false, rfl, fun hb => absurd hb Bool.false_ne_true⟩
  | some paths =>
    simp only [h]
    split
    · refine ⟨(insights.analyzedArgs? g).any (·.agrees σ), rfl, fun hb => ?_⟩
      cases hτ : insights.analyzedArgs? g with
      | none =>
        rw [hτ] at hb
        cases hb
      | some τ =>
        rw [hτ] at hb
        exact ⟨paths, τ, rfl, rfl, hb⟩
    · exact ⟨false, rfl, fun hb => absurd hb Bool.false_ne_true⟩

/-- An idle function is analysed on the way to a call that is not marked unless it is up to date. -/
theorem shouldAnalyze_apply (hon : setup.settings.analyzeResolved = true) {call : Artifact}
    (hm : s.insights.recursive? call.id = none) {g : Function}
    (ha : s.stack.any (·.id = g.id) = false) :
    ∃ es, shouldAnalyze setup call g s =
      ((upToDate s.insights g).map (!·), { s with events := es }) := by
  have ht : (liftM ((s.insights.recursive? call.id).getD (.bool false)).truth : Run Bool) s =
      (.ok false, s) := by
    rw [hm]
    rfl
  rw [shouldAnalyze, hon]
  simp only [Bool.not_true, Bool.false_eq_true, if_false]
  rw [bind_of_ok (insights_apply s), bind_of_ok ht]
  simp only [Bool.false_eq_true, if_false]
  rw [bind_of_ok (isActive_apply g s), ha]
  simp only [Bool.false_eq_true, if_false]
  rw [bind_of_ok (insights_apply s), upToDate]
  cases s.insights.paths? g with
  | none => exact ⟨s.events, rfl⟩
  | some paths =>
    simp only
    cases paths.all (Path.has .pathDuration) with
    | false => exact ⟨s.events, rfl⟩
    | true =>
      simp only [Bool.not_true, Bool.false_eq_true, if_false, if_true]
      rcases hc : Signature.of (s.insights.effectiveArgs g) with e | current
      · exact ⟨s.events, rfl⟩
      · rw [← hc, bind_of_ok (lift_of_ok hc s), hc]
        cases s.insights.analyzedArgs? g with
        | none => exact ⟨_, rfl⟩
        | some analyzed =>
          simp only
          cases ha : analyzed.agrees current with
          | false => exact ⟨_, by simp [ha]; rfl⟩
          | true => exact ⟨s.events, by simp [ha]; rfl⟩

theorem noteSignature_apply {f : Function} {σ : Signature}
    (h : Signature.of (s.insights.effectiveArgs f) = .ok σ) :
    ∃ es, noteSignature f s =
      (.ok (), { s.put f.id .analyzedArgs (.note (.signature σ)) with events := es }) := by
  obtain ⟨es, hs⟩ := set_apply f.id .analyzedArgs (.note (.signature σ)) s
  refine ⟨es, ?_⟩
  rw [noteSignature, bind_of_ok (insights_apply s), bind_of_ok (lift_of_ok h s), bind_of_ok hs]
  rfl

theorem measuredDuration_of_bare (durations : Durations) {insights : Insights} {g : Function}
    (h : insights.duration? g.id = none) :
    measuredDuration durations insights g = match durations.measured? g with
      | some v => do return some (← v.toInt)
      | none => .ok none := by
  rw [measuredDuration]
  cases durations.measured? g with
  | some v => rfl
  | none => simp only [h]

def durationInsight (duration : Int) : Insight := ⟨.functionDuration, .int duration, true⟩

theorem storeDuration_apply {call : Artifact}
    (h : ∀ i, s.insights.duration? call.id = some i → i.derived = true) (duration : Int)
    (source : String) :
    ∃ es, storeDuration call duration source s =
      (.ok (), { (s.put call.id .functionDuration (.insight (durationInsight duration))).put call.id
        .durationSource (.note (.value (.str source))) with events := es }) := by
  obtain ⟨es, hs⟩ := set_apply call.id .functionDuration (.insight (durationInsight duration)) s
  rw [InsightData.set_insight _ h] at hs
  obtain ⟨es', hs'⟩ := set_apply call.id .durationSource (.note (.value (.str source)))
    { s.put call.id .functionDuration (.insight (durationInsight duration)) with events := es }
  exact ⟨es', (bind_of_ok hs _).trans (bind_of_ok hs' _)⟩

theorem dropDerived_of_none {call : Artifact} (h : s.insights.duration? call.id = none) :
    dropDerived call s = (.ok (), s) := by
  rw [dropDerived, bind_of_ok (insights_apply s), h]
  rfl

theorem dropDerived_of_derived {call : Artifact} {i : Insight}
    (h : s.insights.duration? call.id = some i) (hi : i.derived = true) :
    dropDerived call s =
      (.ok (), (s.drop call.id .functionDuration).drop call.id .durationSource) := by
  rw [dropDerived, bind_of_ok (insights_apply s), h]
  simp only [hi, if_true]
  rfl

theorem pathDurations_apply {f : Function} {paths : List Path} {durations : List (List Int)}
    (h : s.insights.paths? f = some paths)
    (hd : paths.mapM (knownDurations s.insights ·) = .ok durations) :
    ∃ es, pathDurations f s = (.ok (), { s.put f.id .paths (.note (.paths
      (if durations.all List.isEmpty then paths.map forgetDerived
        else paths.zipWith addUp durations))) with events := es }) := by
  have hk : (paths.mapM fun p => (liftM (knownDurations s.insights p) : Run _)) s =
      (.ok durations, s) := by
    rw [mapM_lift_apply, hd]
  rw [pathDurations, bind_of_ok (insights_apply s), h]
  simp only [Option.getD_some, Option.isSome_some, if_true]
  rw [bind_of_ok hk]
  cases durations.all List.isEmpty with
  | true =>
    simp only [Bool.not_true, Bool.false_eq_true, if_false, if_true]
    obtain ⟨es, hs⟩ := set_apply f.id .paths (.note (.paths (paths.map forgetDerived))) s
    exact ⟨es, bind_of_ok hs _⟩
  | false =>
    simp only [Bool.not_false, Bool.false_eq_true, if_false, if_true]
    obtain ⟨es, hlog⟩ := forM_log_apply "sightline.insight.data" (sumRefusals paths durations) s
    obtain ⟨es', hs⟩ := set_apply f.id .paths (.note (.paths (paths.zipWith addUp durations)))
      { s with events := es }
    exact ⟨es', (bind_of_ok hlog _).trans (bind_of_ok hs _)⟩

/-- Without paths there is nothing to add up, and with them either some duration is no number or every
path is dealt with. -/
theorem pathDurations_cases (f : Function) (s : State) :
    (s.insights.paths? f = none ∧ pathDurations f s = (.ok (), s)) ∨
      ∃ paths, s.insights.paths? f = some paths ∧
        ((∃ e, paths.mapM (knownDurations s.insights ·) = .error e ∧
            pathDurations f s = (.error e, s)) ∨
          ∃ durations events, paths.mapM (knownDurations s.insights ·) = .ok durations ∧
            pathDurations f s = (.ok (), { s.put f.id .paths (.note (.paths
              (if durations.all List.isEmpty then paths.map forgetDerived
                else paths.zipWith addUp durations))) with events })) := by
  cases h : s.insights.paths? f with
  | none =>
    refine .inl ⟨rfl, ?_⟩
    rw [pathDurations, bind_of_ok (insights_apply s), h]
    rfl
  | some paths =>
    refine .inr ⟨paths, rfl, ?_⟩
    cases hd : paths.mapM (knownDurations s.insights ·) with
    | error e =>
      refine .inl ⟨e, rfl, ?_⟩
      have hk : (paths.mapM fun p => (liftM (knownDurations s.insights p) : Run _)) s =
          (.error e, s) := by
        rw [mapM_lift_apply, hd]
      rw [pathDurations, bind_of_ok (insights_apply s), h]
      exact bind_of_error hk _
    | ok durations =>
      obtain ⟨es, hs⟩ := pathDurations_apply h hd
      exact .inr ⟨durations, es, rfl, hs⟩

end Analysis

end CallTime

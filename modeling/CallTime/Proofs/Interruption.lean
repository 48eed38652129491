import CallTime.Proofs.Transparency

/-!
Analyses that stop when their ticks are used up.

A function that is under analysis then has the signature of its new arguments, but its paths may have
durations for the old ones. Main statement: as long as this is so for none but the function the analysis
started at, another analysis of that function comes to the same as if there had been no interruption.
-/

namespace CallTime

open Analysis

namespace Program

open Relation

variable {P : Program} {durations : Durations} {choose : Policy} {f g : Function}
  {insights : Insights} {stale : List Function} {limit : Int}

def runOn (P : Program) (durations : Durations) (insights : Insights) (f : Function) : Outcome :=
  analyze (P.setup durations) insights f.artifact

def runWithin (P : Program) (durations : Durations) (limit : Int) (insights : Insights) (f : Function) :
    Outcome :=
  analyze (P.configured durations { maxTicks := .int limit }) insights f.artifact

def interrupted (P : Program) (durations : Durations) (limit : Int) (insights : Insights)
    (f : Function) : List Function :=
  let setup := P.configured durations { maxTicks := .int limit }
  (analyzeBy (shouldAnalyze setup) setup f.artifact { insights, clock := .metered limit 0 }).2.stack

/-- The function is charged for the arguments it has, as these insights show it. -/
structure Charging (P : Program) (durations : Durations) (start insights : Insights) (f : Function)
    (c : Artifact → Cost) : Prop where
  charges : P.Charges durations f (start.callArgs? f) c
  shown : ∀ a ∈ body f, Shows insights a (c a)
  paths : insights.paths? f = some (P.timed f c)

theorem Trusted.runOn (hP : P.Acyclic) (hd : P.Discerning) (hf : P.Has f)
    (h : P.Trusted durations stale insights) (hfresh : ∀ k ∈ stale, ¬TransGen P.forest.Calls f k) :
    (∃ c, P.Charging durations insights (P.runOn durations insights f).insights f c ∧
      (P.runOn durations insights f).result = .ok (some (P.timed f c))) ∨
    ((∃ e, (P.runOn durations insights f).result = .error e) ∧
      ¬∃ c, P.Charges durations f (insights.callArgs? f) c) := by
  have hon := honest_shouldAnalyze (P.setup durations) rfl
  have hclock : Clock.forLimit (P.setup durations).settings.maxTicks = .ok (.unbounded 0) := rfl
  obtain ⟨hresult, hinsights⟩ := analyze_eq (P.setup durations) hclock insights f.artifact
  have hend := serves_entering durations none {} hP hd hon hf hfresh
    { insights, clock := .unbounded 0 } rfl ⟨rfl, h⟩
  have hrun : analyzeBy (shouldAnalyze (P.setup durations)) (P.setup durations) f.artifact = do
      P.entering durations {} (shouldAnalyze (P.setup durations)) f
      return (← Run.insights).paths? f := rfl
  rw [Program.runOn, hresult, hinsights, hrun]
  unfold Run.Ends at hend
  rcases hv : P.entering durations {} (shouldAnalyze (P.setup durations)) f
    { insights, clock := .unbounded 0 } with ⟨e | u, t⟩ <;> rw [hv] at hend
  · rw [Run.bind_of_error hv]
    refine .inr ⟨⟨e, rfl⟩, ?_⟩
    obtain ⟨l, _, hl, -⟩ | hn := hend.cause
    · cases hl
    · exact hn
  · rw [Run.bind_of_ok hv, Run.bind_of_ok (Run.insights_apply t)]
    obtain ⟨c, hc, hshown, hpaths⟩ := hend.2.2.charges
    exact .inl ⟨c, ⟨hc, hshown, hpaths⟩, congrArg Except.ok hpaths⟩

theorem forLimit_of_exhausted {spent : Int}
    (h : (P.runWithin durations limit insights f).result = .error (.exhausted spent limit)) :
    Clock.forLimit (P.configured durations { maxTicks := .int limit }).settings.maxTicks =
      .ok (.metered limit 0) := by
  have hlimit := Clock.forLimit_int limit
  change Clock.forLimit (.int limit) = _
  rw [hlimit]
  split
  · next hle =>
    rw [if_pos hle] at hlimit
    rw [runWithin, analyze,
      show Clock.forLimit (P.configured durations { maxTicks := .int limit }).settings.maxTicks = _
        from hlimit] at h
    cases h
  · rfl

/-- What an interrupted analysis leaves: the functions that were under analysis are stale, and what the
function itself was given is as before. -/
theorem Firm.interrupted (hP : P.Acyclic) (hd : P.Discerning) (h : P.Firm durations insights)
    (hf : P.Has f) {spent : Int}
    (hstop : (P.runWithin durations limit insights f).result = .error (.exhausted spent limit)) :
    P.Trusted durations (P.interrupted durations limit insights f)
        (P.runWithin durations limit insights f).insights ∧
      (P.runWithin durations limit insights f).insights.callArgs? f = insights.callArgs? f := by
  have hclock := forLimit_of_exhausted hstop
  have hon := honest_shouldAnalyze (P.configured durations { maxTicks := .int limit }) rfl
  obtain ⟨hresult, hinsights⟩ := analyze_eq _ hclock insights f.artifact
  have hend := serves_entering durations (some limit) { maxTicks := .int limit } hP hd hon hf
    (List.forall_mem_nil _)
    { insights, clock := .metered limit 0 } rfl ⟨rfl, h.trusted⟩
  have hspares := spares_entering P durations { maxTicks := .int limit } hon f
    { insights, clock := .metered limit 0 }
  have hrun : analyzeBy (shouldAnalyze (P.configured durations { maxTicks := .int limit }))
      (P.configured durations { maxTicks := .int limit }) f.artifact = do
        P.entering durations { maxTicks := .int limit }
          (shouldAnalyze (P.configured durations { maxTicks := .int limit })) f
        return (← Run.insights).paths? f := rfl
  rw [runWithin, hresult, hrun] at hstop
  rw [runWithin, hinsights, Program.interrupted, hrun]
  unfold Run.Ends at hend
  rcases hv : P.entering durations { maxTicks := .int limit }
    (shouldAnalyze (P.configured durations { maxTicks := .int limit })) f
    { insights, clock := .metered limit 0 } with ⟨e | u, t⟩ <;> rw [hv] at hend hspares
  · simp only [Run.bind_of_error hv]
    obtain ⟨opened, hstack, htrusted⟩ := hend.state
    rw [List.append_nil] at hstack htrusted
    refine ⟨hstack ▸ htrusted, Insights.callArgs?_congr (hspares _ _ ?_)⟩
    obtain ⟨F, hF, hfF⟩ := hf.top
    exact hP.not_touches_others hF (fun b hb => walk_subset hfF hb) hfF (.inl rfl)
  · rw [Run.bind_of_ok hv] at hstop
    cases hstop

/-- An analysis that was stopped does no harm to the next one, in a discerning program without
recursion, as long as no function but the one it started at was under analysis with durations on all its
paths: another analysis completes or not as it would have without the first one, and the function ends
up with the same durations on its calls and its paths. -/
theorem interruption_harmless (P : Program) (durations : Durations) (hP : P.Acyclic)
    (hd : P.Discerning) {insights : Insights} (h : P.Reached durations insights) {f : Function}
    (hf : P.Has f) {limit spent : Int}
    (hstop : (P.runWithin durations limit insights f).result = .error (.exhausted spent limit))
    (hstale : ∀ g ∈ P.interrupted durations limit insights f, g ∈ P.functions → g ≠ f →
      ∀ paths, (P.runWithin durations limit insights f).insights.paths? g = some paths →
        paths.all (Path.has .pathDuration) = false) :
    ((∃ paths, (P.runOn durations (P.runWithin durations limit insights f).insights f).result =
        .ok paths) ↔ ∃ paths, (P.runOn durations insights f).result = .ok paths) ∧
      ((∃ paths, (P.runOn durations insights f).result = .ok paths) →
        (P.runOn durations (P.runWithin durations limit insights f).insights f).insights.paths? f =
            (P.runOn durations insights f).insights.paths? f ∧
          ∀ a ∈ body f,
            (P.runOn durations (P.runWithin durations limit insights f).insights f).insights.duration?
                a.id = (P.runOn durations insights f).insights.duration? a.id ∧
              (P.runOn durations (P.runWithin durations limit insights
                  f).insights f).insights.durationSource? a.id =
                (P.runOn durations insights f).insights.durationSource? a.id) := by
  have hfirm := h.firm hP hd
  obtain ⟨htrusted, hargs⟩ := hfirm.interrupted hP hd hf hstop
  have hself : ∀ k ∈ [f], ¬TransGen P.forest.Calls f k := by
    intro k hk hl
    obtain rfl := List.mem_singleton.mp hk
    obtain ⟨g, hcall, hl⟩ := TransGen.head'_iff.mp hl
    exact hP.not_below_of_calls hf hcall ⟨k, hl, k.artifact.mem_walk_self⟩
  have hleft : P.Trusted durations [f] (P.runWithin durations limit insights f).insights := by
    refine ⟨htrusted.regular, fun g hg hn => ?_⟩
    by_cases hm : g ∈ P.interrupted durations limit insights f
    · intro τ ps _ hps hall
      have hnot := hstale g hm hg (fun he => hn (List.mem_singleton.mpr he)) ps hps
      exact absurd hall (Bool.eq_false_iff.mp hnot)
    · exact htrusted.valid g hg hm
  have hafter := hleft.runOn hP hd hf hself
  have hdirect := hfirm.trusted.runOn hP hd hf (List.forall_mem_nil _)
  rw [hargs] at hafter
  obtain ⟨c, hc, hok⟩ | ⟨⟨e, he⟩, hn⟩ := hafter <;>
    obtain ⟨c', hc', hok'⟩ | ⟨⟨e', he'⟩, hn'⟩ := hdirect
  · refine ⟨⟨fun _ => ⟨_, hok'⟩, fun _ => ⟨_, hok⟩⟩, fun _ => ?_⟩
    have hcharges := hc.charges
    rw [hargs] at hcharges
    have hsame := hcharges.unique c' hc'.charges
    refine ⟨?_, fun a ha => ?_⟩
    · rw [hc.paths, hc'.paths, hf.timed_congr hsame]
    · rw [(hc.shown a ha).duration, (hc.shown a ha).source, (hc'.shown a ha).duration,
        (hc'.shown a ha).source, hsame a ha]
      exact ⟨rfl, rfl⟩
  · exact absurd ⟨c, hargs ▸ hc.charges⟩ hn'
  · exact absurd ⟨c', hc'.charges⟩ hn
  · refine ⟨⟨?_, ?_⟩, ?_⟩ <;> rintro ⟨_, h⟩
    · rw [he] at h
      cases h
    · rw [he'] at h
      cases h
    · rw [he'] at h
      cases h

/-- A function that waits long for one argument only, behind a wrapper with two callers. -/
def waiting : Program :=
  let x : Draft := .reference none "x" (some 0)
  let one : Draft := .literal none (.int 1)
  ofDrafts [
    .defining "job" [] [.calling "wrap" [one]],
    .defining "wrap" [x] [.calling "work" [x]],
    .defining "work" [x] [.branch none (some (.binary none "==" (some x) (some one)))
      (some (.calling "slow" [])) (some (.calling "fast" []))],
    .defining "slow" [] [], .defining "fast" [] [],
    .defining "main" [] [.calling "wrap" [.literal none (.int 2)]]] rfl

theorem functions_waiting : waiting.functions ≠ [] := by
  intro h
  have : waiting.functions.length = 6 := by decide +kernel
  rw [h] at this
  cases this

def waitingJob : Function := waiting.functions.head functions_waiting

def waitingMain : Function := waiting.functions.getLast functions_waiting

theorem has_waitingJob : waiting.Has waitingJob := has_of_mem (List.head_mem functions_waiting)

theorem has_waitingMain : waiting.Has waitingMain := has_of_mem (List.getLast_mem functions_waiting)

theorem ascending_waiting :
    waiting.Ascending (["main", "job", "wrap", "work", "slow", "fast"].idxOf ·.name) := by
  decide +kernel

theorem acyclic_waiting : waiting.Acyclic := ascending_waiting.acyclic

theorem constants_waiting : waiting.Constants :=
  .of_flat (by decide +kernel) (by decide +kernel) (by decide +kernel)

theorem discerning_waiting : waiting.Discerning := constants_waiting.discerning (by decide +kernel)

theorem exists_of_isOk {α : Type} {r : Except Fault α} (h : r.isOk = true) : ∃ a, r = .ok a := by
  cases r with
  | error e => cases h
  | ok a => exact ⟨a, rfl⟩

set_option maxRecDepth 20000 in
/-- The ticks are used up deep in the first analysis of all. -/
theorem waiting_interruption_harmless :
    waiting.Acyclic ∧ waiting.Discerning ∧ waiting.Reached waits {} ∧ waiting.Has waitingJob ∧
      (waiting.runWithin waits 12 {} waitingJob).result = .error (.exhausted 13 12) ∧
      (waiting.interrupted waits 12 {} waitingJob).map Function.name = ["work", "wrap", "job"] ∧
      (waiting.runOn waits (waiting.runWithin waits 12 {} waitingJob).insights
          waitingJob).insights.paths? waitingJob =
        (waiting.runOn waits {} waitingJob).insights.paths? waitingJob ∧
      ∀ a ∈ body waitingJob,
        (waiting.runOn waits (waiting.runWithin waits 12 {} waitingJob).insights
            waitingJob).insights.duration? a.id =
          (waiting.runOn waits {} waitingJob).insights.duration? a.id ∧
        (waiting.runOn waits (waiting.runWithin waits 12 {} waitingJob).insights
            waitingJob).insights.durationSource? a.id =
          (waiting.runOn waits {} waitingJob).insights.durationSource? a.id := by
  have hstop : (waiting.runWithin waits 12 {} waitingJob).result = .error (.exhausted 13 12) := by cbv
  have hstack : (waiting.interrupted waits 12 {} waitingJob).map Function.name =
      ["work", "wrap", "job"] := by cbv
  have hopen : (waiting.interrupted waits 12 {} waitingJob).all (fun g =>
      ((waiting.runWithin waits 12 {} waitingJob).insights.paths? g).all fun paths =>
        !paths.all (Path.has .pathDuration)) = true := by cbv
  have hok : (waiting.runOn waits {} waitingJob).result.isOk = true := by cbv
  refine ⟨acyclic_waiting, discerning_waiting, .start, has_waitingJob, hstop, hstack,
    (interruption_harmless waiting waits acyclic_waiting discerning_waiting .start
      has_waitingJob hstop fun g hg _ _ paths hpaths => ?_).2 (exists_of_isOk hok)⟩
  have := List.all_eq_true.mp hopen g hg
  rw [hpaths] at this
  simpa using this

theorem Reached.runOn (h : P.Reached durations insights) (hf : P.Has f)
    (hok : (P.runOn durations insights f).result.isOk = true) :
    P.Reached durations (P.runOn durations insights f).insights := by
  obtain ⟨paths, hpaths⟩ := exists_of_isOk hok
  exact .step h {} rfl hf hpaths

set_option maxRecDepth 20000 in
/-- Here `wrap` was analysed for `main`, and it is under analysis again when the ticks are used up. Its
paths keep the durations of `main`, with the signature of `job`. -/
theorem waiting_interruption_harmful :
    waiting.Acyclic ∧ waiting.Constants ∧ waiting.Has waitingJob ∧
      waiting.Reached waits (waiting.runOn waits {} waitingMain).insights ∧
      (waiting.runWithin waits 3 (waiting.runOn waits {} waitingMain).insights waitingJob).result =
        .error (.exhausted 4 3) ∧
      ((waiting.runOn waits (waiting.runWithin waits 3 (waiting.runOn waits {} waitingMain).insights
          waitingJob).insights waitingJob).insights.paths? waitingJob).map (·.map Path.duration?) =
        some [some (.int 10)] ∧
      ((waiting.runOn waits (waiting.runOn waits {} waitingMain).insights
          waitingJob).insights.paths? waitingJob).map (·.map Path.duration?) =
        some [some (.int 500)] := by
  have hok : (waiting.runOn waits {} waitingMain).result.isOk = true := by cbv
  have times : (fun start => ((waiting.runWithin waits 3 start waitingJob).result,
      ((waiting.runOn waits (waiting.runWithin waits 3 start waitingJob).insights
        waitingJob).insights.paths? waitingJob).map (·.map Path.duration?),
      ((waiting.runOn waits start waitingJob).insights.paths? waitingJob).map (·.map Path.duration?)))
      (waiting.runOn waits {} waitingMain).insights =
        (.error (.exhausted 4 3), some [some (.int 10)], some [some (.int 500)]) := by
    cbv
  obtain ⟨hstop, times⟩ := Prod.mk.inj times
  obtain ⟨after, direct⟩ := Prod.mk.inj times
  exact ⟨acyclic_waiting, constants_waiting, has_waitingJob, Reached.start.runOn has_waitingMain hok,
    hstop, after, direct⟩

end Program

end CallTime

import Mathlib
import CallTime.Proofs.Correctness

/-!
Analysing a module twice.

The second analysis begins with the arguments that the first one left on the functions. Main statement:
it leaves a function as it is exactly if the calls in it cost the same for its old and its new
arguments, and these are the same ones wherever callers come before the functions they call.
-/

namespace CallTime.Program

open Analysis
open Artifact (under)

variable {P : Program} {durations : Durations} {f : Function} {σ τ : Signature} {call : Artifact}
  {a b c : Insights}

/-- The calls in a function and its paths have the same durations. -/
structure SameDurations (f : Function) (a b : Insights) : Prop where
  calls : ∀ call ∈ body f, call.isCall = true → b.duration? call.id = a.duration? call.id ∧
    b.durationSource? call.id = a.durationSource? call.id
  paths : b.paths? f = a.paths? f

theorem Shows.eq_iff {x y : Cost} (h : Shows a call x) (h' : Shows b call y) :
    (b.duration? call.id = a.duration? call.id ∧
      b.durationSource? call.id = a.durationSource? call.id) ↔ x = y := by
  rw [h.duration, h'.duration, h.source, h'.source]
  constructor
  · rintro ⟨hd, hs⟩
    cases x with
    | none =>
      cases y with
      | none => rfl
      | some y => cases hd
    | some x =>
      cases y with
      | none => cases hd
      | some y =>
        have hd' : y.1 = x.1 := Value.int.inj (congrArg Insight.value (Option.some.inj hd))
        have hs' : y.2 = x.2 := Text.ofString_injective (Value.str.inj (Option.some.inj hs))
        rw [Prod.ext hd' hs']
  · rintro rfl
    exact ⟨rfl, rfl⟩

/-- The durations of a function tell which costs they were taken from. -/
theorem Settled.same_iff (hP : P.Plain) (hf : f ∈ P.functions) (h : P.Settled durations a f σ)
    (h' : P.Settled durations b f τ) :
    SameDurations f a b ↔ ∀ call ∈ body f, call.isCall = true →
      P.cost durations σ call = P.cost durations τ call := by
  constructor
  · intro hs call hc hcall
    obtain ⟨x, hx, hshow⟩ := h.calls call hc hcall
    obtain ⟨y, hy, hshow'⟩ := h'.calls call hc hcall
    rw [hx, hy, (Shows.eq_iff hshow hshow').mp (hs.calls call hc hcall)]
  · intro hs
    refine ⟨fun call hc hcall => ?_, ?_⟩
    · obtain ⟨x, hx, hshow⟩ := h.calls call hc hcall
      obtain ⟨y, hy, hshow'⟩ := h'.calls call hc hcall
      refine (Shows.eq_iff hshow hshow').mpr ?_
      exact Except.ok.inj (hx.symm.trans ((hs call hc hcall).trans hy))
    · obtain ⟨ps, hps, hp⟩ := h.paths
      obtain ⟨qs, hqs, hq⟩ := h'.paths
      rw [timedPaths_congr hP hf hs, hqs] at hps
      rw [hp, hq, Except.ok.inj hps]

/-- Where callers come first, a function gets the same arguments again. -/
theorem Complete.again (hP : P.Plain) (ho : P.Ordered) (h : P.Complete durations a b)
    (h' : P.Complete durations b c) (hf : f ∈ P.functions) :
    (c.effectiveArgs f).map (under []) = (b.effectiveArgs f).map (under []) := by
  -- The callers of a function are above it, so the induction goes down from the highest rank.
  induction hr : P.functions.length - P.forest.rank P.functions f using Nat.strongRecOn
    generalizing f with
  | _ n ih =>
    subst hr
    by_cases hc : P.Called f
    · obtain ⟨g, call, hlast⟩ := exists_lastCall hc
      have hlt := Forest.rank_lt hlast.mem (hP.acyclic g hlast.mem) hlast.calls
      have hle := Forest.rank_le_length P.forest P.functions g
      rw [h.progress.handed ho f g call hlast.mem hlast,
        h'.progress.handed ho f g call hlast.mem hlast, ih _ (by omega) hlast.mem rfl]
    · rw [Insights.effectiveArgs, h'.uncalled f hf hc]
      rfl

/-- A module of which nothing is known is analysed twice. Unless one of the two runs fails, which takes
a condition, a measured duration or a mean that fails, every function is left as it was exactly if
the calls in it cost the same for the arguments that either run ended with. That is so for a function
that is never called, and for all functions where callers come first. -/
theorem run_again_same_iff (P : Program) (durations : Durations) (hP : P.Plain) :
    (∃ e, ((P.run durations {}).result = .error e ∨
        (P.run durations (P.run durations {}).insights).result = .error e) ∧
      (P.Broken durations e ∨ e = .quotientTooLarge ∧ P.Overflows durations)) ∨
    (P.run durations {}).result = .ok none ∧
    (P.run durations (P.run durations {}).insights).result = .ok none ∧
    ∀ f ∈ P.functions, ∃ σ τ,
      (P.run durations {}).insights.analyzedArgs? f = some σ ∧
      (P.run durations (P.run durations {}).insights).insights.analyzedArgs? f = some τ ∧
      (SameDurations f (P.run durations {}).insights
        (P.run durations (P.run durations {}).insights).insights ↔
        ∀ call ∈ body f, call.isCall = true →
          P.cost durations σ call = P.cost durations τ call) ∧
      (P.Ordered ∨ ¬P.Called f → σ = τ) := by
  obtain ⟨e, he, hf⟩ | ⟨hr, hc⟩ := run_complete hP (coherent_empty P durations)
  · exact .inl ⟨e, .inl he, hf.cause hP⟩
  obtain ⟨e, he, hf⟩ | ⟨hr', hc'⟩ := run_complete hP hc.coherent
  · exact .inl ⟨e, .inr he, hf.cause hP⟩
  refine .inr ⟨hr, hr', fun f hf => ?_⟩
  obtain ⟨σ, hσ⟩ := Option.isSome_iff_exists.mp (hc.progress.analyzed f hf)
  obtain ⟨τ, hτ⟩ := Option.isSome_iff_exists.mp (hc'.progress.analyzed f hf)
  have hset := hc.coherent.settled f hf List.not_mem_nil σ hσ
  have hset' := hc'.coherent.settled f hf List.not_mem_nil τ hτ
  refine ⟨σ, τ, hσ, hτ, hset.same_iff hP hf hset', fun h => ?_⟩
  rw [← hset.current, ← hset'.current]
  obtain ho | hn := h
  · exact (hc.again hP ho hc' hf).symm
  · rw [Insights.effectiveArgs, Insights.effectiveArgs, hc'.uncalled f hf hn]

theorem ordered_wrapperChain : wrapperChain.Ordered :=
  ascending_wrapperChain.ordered (by decide +kernel)

theorem wrapperChain_again_same :
    wrapperChain.Plain ∧ wrapperChain.Ordered ∧
      (wrapperChain.run waits {}).result = .ok none ∧
      (wrapperChain.run waits (wrapperChain.run waits {}).insights).result = .ok none ∧
      ∀ f ∈ wrapperChain.functions, SameDurations f (wrapperChain.run waits {}).insights
        (wrapperChain.run waits (wrapperChain.run waits {}).insights).insights := by
  refine ⟨plain_wrapperChain, ordered_wrapperChain, ?_⟩
  obtain ⟨e, -, hb | ⟨-, ho⟩⟩ | ⟨hr, hr', h⟩ :=
    run_again_same_iff wrapperChain waits plain_wrapperChain
  · exact absurd hb (covered_wrapperChain.not_broken e)
  · exact absurd ho covered_wrapperChain.not_overflows
  · refine ⟨hr, hr', fun f hf => ?_⟩
    obtain ⟨σ, τ, -, -, hiff, hsame⟩ := h f hf
    obtain rfl := hsame (.inl ordered_wrapperChain)
    exact hiff.mpr fun _ _ _ => rfl

/-- A function that `main` reaches twice, and the second time by one that comes before `main`. -/
def detour : Program :=
  let x : Draft := .reference none "x" (some 0)
  ofDrafts [
    .defining "outer" [x] [.calling "middle" [x]],
    .defining "main" [] [.calling "middle" [.literal none (.int 0)],
      .calling "outer" [.literal none (.int 1)]],
    .defining "middle" [x] [.calling "inner" [x]],
    .defining "inner" [x] [.branch none (some x) (some (.calling "slow" [])) none],
    .defining "slow" [] []] rfl

def naps : Durations := ⟨⟨[("slow", .int 1)]⟩⟩

theorem ascending_detour :
    detour.Ascending (["main", "outer", "middle", "inner", "slow"].idxOf ·.name) := by
  decide +kernel

theorem plain_detour : detour.Plain where
  byValue := by decide +kernel
  acyclic := ascending_detour.acyclic
  flat := by decide +kernel
  parameters := by decide +kernel
  constant := by decide +kernel

def pathTimes (P : Program) (insights : Insights) : List (Option (List (Option Value))) :=
  P.functions.map fun f => (insights.paths? f).map (·.map Path.duration?)

theorem pathTimes_congr (h : ∀ f ∈ P.functions, SameDurations f a b) :
    P.pathTimes b = P.pathTimes a :=
  List.map_congr_left fun f hf => by rw [(h f hf).paths]

set_option maxRecDepth 20000 in
theorem detour_again_other :
    detour.Plain ∧ ¬∀ f ∈ detour.functions, SameDurations f (detour.run naps {}).insights
      (detour.run naps (detour.run naps {}).insights).insights := by
  refine ⟨plain_detour, fun same => ?_⟩
  -- When `outer` is up to date it is not entered, and the arguments that `main` gives `middle` stay.
  have times : (fun a => (detour.pathTimes a, detour.pathTimes (detour.run naps a).insights))
      (detour.run naps {}).insights =
        ([some [some (.int 1)], some [some (.int 1)], some [some (.int 1)],
            some [some (.int 1), some (.int 0)], some [none]],
          [some [some (.int 1)], some [some (.int 1)], some [some (.int 0)],
            some [some (.int 1), some (.int 0)], some [none]]) := by
    cbv
  obtain ⟨first, second⟩ := Prod.mk.inj times
  have := first.symm.trans ((pathTimes_congr same).symm.trans second)
  simp at this

end CallTime.Program

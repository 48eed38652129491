import CallTime.Proofs.Constants
import CallTime.Proofs.Durations
import CallTime.Proofs.Execution

/-!
What calls are charged, with any arguments and with functions inside functions.

A function is analysed for the arguments that reached it, or for none. A derivation says which charge
every call below it then gets, and exists only if nothing fails on the way. Main statements: charges are
unique, and they depend on how arguments look: on their values, and on which of them are parameters.
-/

namespace CallTime

open Analysis

namespace Program

open Artifact (walkFrom traces)

variable {P : Program} {durations : Durations} {f g k : Function}

theorem Has.unshared (hf : P.Has f) : P.forest.Unshared f := by
  have hsub : ∀ a ∈ f.body.walk, a ∈ P.module.walk := fun a ha =>
    mem_module_of_mem_walk hf (mem_body ((walk_body_sublist f).subset ha))
  refine ⟨?_, ?_, fun a ha => P.parent a (hsub a ha)⟩
  · have hs := (walk_body_sublist f).trans (List.sublist_cons_self f.artifact _)
    rw [← walk_function] at hs
    exact P.unshared.sublist ((hs.trans (Artifact.walk_sublist hf)).map _)
  · exact P.parent f.artifact hf f.body (List.mem_append_right _ (List.mem_singleton_self _))

theorem Has.pays (hf : P.Has f) : Timed.Pays (Path.enumerate P.forest f) (P.paths f) := by
  have h := Path.pays_enumerate P.sound (holds hf) hf.unshared
  obtain ⟨k, hk⟩ := h.unbounded 0
  rwa [paths, hk]

theorem Has.paths_eq (hf : P.Has f) : P.paths f = (traces f.body).map (Path.ofTrace f) := by
  obtain ⟨k, hk⟩ := (Path.pays_enumerate P.sound (holds hf) hf.unshared).unbounded 0
  rw [paths, hk]

theorem Has.path_in (hf : P.Has f) : ∀ p ∈ P.paths f, p.In f := by
  intro p hp
  rw [hf.paths_eq] at hp
  obtain ⟨t, ht, rfl⟩ := List.mem_map.mp hp
  have hs := Artifact.stays_of_mem_traces f.body t ht
  have hsub : ∀ a, Artifact.Reach [f.body] a → a ∈ body f := fun a ha =>
    (walk_body_sublist f).subset ha.mem_walkFrom
  exact ⟨rfl, fun c hc => hsub _ (hs.outcomes c hc), fun a ha => hsub _ (hs.emitted a ha)⟩

theorem Has.paths_ne_nil (hf : P.Has f) : P.paths f ≠ [] := by
  intro h
  rw [hf.paths_eq, List.map_eq_nil_iff] at h
  have hone := f.body.filter_traces fun _ => true
  rw [h] at hone
  cases hone

def timed (P : Program) (f : Function) (c : Artifact → Cost) : List Path :=
  (P.paths f).zipWith Path.timed (Path.totals
    ((P.paths f).map fun p => p.calls.filterMap fun call => (c call).map Prod.fst))

theorem Has.timed_congr (hf : P.Has f) {c c' : Artifact → Cost} (h : ∀ a ∈ body f, c a = c' a) :
    P.timed f c = P.timed f c' := by
  unfold timed
  congr 2
  refine List.map_congr_left fun p hp => List.filterMap_congr fun call hc => ?_
  rw [h call (mem_body_of_mem_calls (hf.path_in p hp) hc)]

/-- The arguments of a call in a function that was given `outer`, or nothing. -/
def argumentsUnder (forest : Forest) (outer : Option (List Artifact)) (call : Artifact) :
    Except Fault (List Artifact) :=
  match outer with
  | none => .ok call.children
  | some outer => call.children.mapM fun argument =>
    match argument with
    | .reference _ _ (some index) =>
      if (forest.enclosing? argument).map Function.id = (forest.enclosing? call).map Function.id then do
        return (← argumentAt outer index).getD argument
      else .ok argument
    | _ => .ok argument

theorem resolveArguments_eq_under (forest : Forest) (insights : Insights) (call : Artifact) :
    resolveArguments forest insights call =
      argumentsUnder forest ((forest.enclosing? call).bind insights.callArgs?) call := by
  unfold resolveArguments argumentsUnder
  rfl

def expected (σ : List Artifact) (paths : List Path) : Except Fault (Option Int) :=
  if fullyResolved σ then do Path.average (← Path.candidates σ paths) else .ok none

/-- The charge for a call of `g` with the arguments `σ`, where the paths of `g` have their durations. -/
def price (durations : Durations) (g : Function) (σ : List Artifact) (paths : List Path) :
    Except Fault Cost := do
  let mean ← expected σ paths
  match durations.measured? g with
  | some v => do return some (← v.toInt, "measured")
  | none => return mean.map (·, "paths")

/-- The arguments that a call below `f` is resolved with, where `f` was given `ρ`: nothing reaches a
function inside. -/
def standing (P : Program) (f : Function) (ρ : Option (List Artifact)) (a : Artifact) :
    Option (List Artifact) :=
  if (P.forest.enclosing? a).map Function.id = some f.id then ρ else none

/-- Where `f` was given `ρ`, the calls below it are charged `c`. -/
inductive Charges (P : Program) (durations : Durations) :
    Function → Option (List Artifact) → (Artifact → Cost) → Prop
  | intro {f : Function} {ρ : Option (List Artifact)} {c : Artifact → Cost}
      (arguments : Artifact → List Artifact) (inner : Artifact → Artifact → Cost)
      (valued : ∃ τ, Signature.of (ρ.getD f.parameters) = .ok τ)
      (nested : ∀ k : Function, k.artifact ∈ body f → ∃ τ, Signature.of k.parameters = .ok τ)
      (free : ∀ a ∈ body f, P.forest.target? a = none → c a = none)
      (resolved : ∀ a ∈ body f, ∀ g, P.forest.target? a = some g →
        argumentsUnder P.forest (P.standing f ρ a) a = .ok (arguments a))
      (callee : ∀ a ∈ body f, ∀ g, P.forest.target? a = some g →
        Charges P durations g (some (arguments a)) (inner a))
      (cost : ∀ a ∈ body f, ∀ g, P.forest.target? a = some g →
        price durations g (arguments a) (P.timed g (inner a)) = .ok (c a)) :
      Charges P durations f ρ c

/-- A call that is resolved with `ρ` is charged `cost`. -/
def Charged (P : Program) (durations : Durations) (ρ : Option (List Artifact)) (a : Artifact)
    (cost : Cost) : Prop :=
  match P.forest.target? a with
  | none => cost = none
  | some g => ∃ σ c, argumentsUnder P.forest ρ a = .ok σ ∧ P.Charges durations g (some σ) c ∧
      price durations g σ (P.timed g c) = .ok cost

/-- The arguments of `f` have values, and so have the parameters of the functions inside. -/
structure Valued (f : Function) (ρ : Option (List Artifact)) : Prop where
  own : ∃ τ, Signature.of (ρ.getD f.parameters) = .ok τ
  nested : ∀ k : Function, k.artifact ∈ body f → ∃ τ, Signature.of k.parameters = .ok τ

variable {ρ : Option (List Artifact)} {c c' : Artifact → Cost} {a : Artifact} {x y : Cost}

theorem charged_of_none (h : P.forest.target? a = none) : P.Charged durations ρ a x ↔ x = none := by
  rw [Charged, h]

theorem charged_of_some (h : P.forest.target? a = some g) :
    P.Charged durations ρ a x ↔ ∃ σ c, argumentsUnder P.forest ρ a = .ok σ ∧
      P.Charges durations g (some σ) c ∧ price durations g σ (P.timed g c) = .ok x := by
  rw [Charged, h]

theorem charges_iff : P.Charges durations f ρ c ↔
    Valued f ρ ∧ ∀ a ∈ body f, P.Charged durations (P.standing f ρ a) a (c a) := by
  constructor
  · rintro ⟨arguments, inner, valued, nested, free, resolved, callee, cost⟩
    refine ⟨⟨valued, nested⟩, fun a ha => ?_⟩
    cases hg : P.forest.target? a with
    | none => exact (charged_of_none hg).mpr (free a ha hg)
    | some g =>
      exact (charged_of_some hg).mpr
        ⟨_, _, resolved a ha g hg, callee a ha g hg, cost a ha g hg⟩
  · rintro ⟨valued, h⟩
    have hall : ∀ a, ∃ σ d, a ∈ body f → ∀ g, P.forest.target? a = some g →
        argumentsUnder P.forest (P.standing f ρ a) a = .ok σ ∧ P.Charges durations g (some σ) d ∧
          price durations g σ (P.timed g d) = .ok (c a) := by
      intro a
      by_cases ha : a ∈ body f
      · cases hg : P.forest.target? a with
        | none => exact ⟨[], fun _ => none, fun _ _ h => by cases h⟩
        | some g =>
          obtain ⟨σ, d, hd⟩ := (charged_of_some hg).mp (h a ha)
          exact ⟨σ, d, fun _ g' hg' => by cases hg'; exact hd⟩
      · exact ⟨[], fun _ => none, fun h => absurd h ha⟩
    choose arguments inner hc using hall
    exact ⟨arguments, inner, valued.own, valued.nested,
      fun a ha hg => (charged_of_none hg).mp (h a ha), fun a ha g hg => (hc a ha g hg).1,
      fun a ha g hg => (hc a ha g hg).2.1, fun a ha g hg => (hc a ha g hg).2.2⟩

theorem Charges.unique (h : P.Charges durations f ρ c) :
    ∀ c', P.Charges durations f ρ c' → ∀ a ∈ body f, c a = c' a := by
  induction h with
  | @intro f ρ c arguments inner _ _ free resolved _ cost ih =>
    intro c' h' a ha
    have hcharged := (charges_iff.mp h').2 a ha
    cases hg : P.forest.target? a with
    | none => rw [free a ha hg, (charged_of_none hg).mp hcharged]
    | some g =>
      obtain ⟨σ, c'', hσ, hc, hprice⟩ := (charged_of_some hg).mp hcharged
      obtain rfl := Except.ok.inj ((resolved a ha g hg).symm.trans hσ)
      rw [← (has_of_target? hg).timed_congr (ih a ha g hg c'' hc)] at hprice
      exact Except.ok.inj ((cost a ha g hg).symm.trans hprice)

theorem Charged.unique (h : P.Charged durations ρ a x) (h' : P.Charged durations ρ a y) : x = y := by
  cases hg : P.forest.target? a with
  | none => rw [(charged_of_none hg).mp h, (charged_of_none hg).mp h']
  | some g =>
    obtain ⟨σ, c, hσ, hc, hx⟩ := (charged_of_some hg).mp h
    obtain ⟨σ', c', hσ', hc', hy⟩ := (charged_of_some hg).mp h'
    obtain rfl := Except.ok.inj (hσ.symm.trans hσ')
    rw [(has_of_target? hg).timed_congr (hc.unique c' hc')] at hx
    exact Except.ok.inj (hx.symm.trans hy)

theorem standing_none (P : Program) (f : Function) (a : Artifact) : P.standing f none a = none := by
  rw [standing, ite_self]

theorem Has.standing_owned (hf : P.Has f) (ha : f.Owns a) (ρ : Option (List Artifact)) :
    P.standing f ρ a = ρ := by
  rw [standing, hf.enclosing? ha]
  exact if_pos rfl

theorem Has.standing_nested (hf : P.Has f) (hk : k.artifact ∈ body f) (ha : a ∈ body k)
    (ρ : Option (List Artifact)) : P.standing f ρ a = none := by
  rw [standing, if_neg]
  intro h
  obtain ⟨o, ho, hown⟩ := exists_owner ha
  have hm : P.Has o := mem_module_of_mem_walk hf (walk_subset (mem_body hk) ho)
  rw [hm.enclosing? hown] at h
  have heq : o.artifact = f.artifact := eq_of_id_eq hm hf (Option.some.inj h)
  exact not_mem_walk_of_nested hf hk (heq ▸ ho)

end Program

end CallTime

import CallTime.Proofs.Constants
import CallTime.Proofs.Durations

/-!
When the reference has no cost to give.

Main statement: a mean fails at a condition that cannot be evaluated, at a measured duration that is no
number, or because it is too large, and in no other way.
-/

namespace CallTime.Program

variable {P : Program} {durations : Durations} {f g : Function} {ρ : Signature} {call : Artifact}

/-- A condition cannot be evaluated for values that can arise, or a measured duration is no number. -/
def Broken (P : Program) (durations : Durations) (e : Fault) : Prop :=
  (∃ g σ, P.Arises g σ ∧ σ.known ∧ ∃ branch ∈ body g, ∃ taken,
    Artifact.branchPossible (Path.conditionOf branch) taken (σ.literals P.forest) = .error e) ∨
  ∃ g ∈ P.functions, ∃ v, durations.measured? g = some v ∧ v.toInt = .error e

theorem exists_cost_eq_error (hP : P.Plain) (hf : f ∈ P.functions)
    {cost : Artifact → Except Fault Cost} {e : Fault} (h : P.timedPaths cost f = .error e) :
    ∃ call ∈ body f, cost call = .error e := by
  rw [timedPaths] at h
  obtain hk | ⟨known, -, h⟩ := error_of_bind h
  · obtain ⟨p, hp, he⟩ := mapM_eq_error hk
    obtain hc | ⟨costs, -, he⟩ := error_of_bind he
    · obtain ⟨call, hm, hcost⟩ := mapM_eq_error hc
      exact ⟨call, mem_body_of_mem_calls (in_of_mem_paths hf (hP.flat f hf) p hp) hm, hcost⟩
    · cases he
  · cases h

theorem exists_timed_of_timedPaths {cost : Artifact → Except Fault Cost} {ps : List Path}
    (h : P.timedPaths cost f = .ok ps) : ∀ q ∈ ps, ∃ p ∈ P.paths f, ∃ d, q = Path.timed p d := by
  rw [timedPaths] at h
  obtain ⟨known, -, h⟩ := ok_of_bind h
  cases h
  exact fun q hq => Path.exists_timed_of_mem hq

theorem cause_of_cost_eq_error (hP : P.Plain) {e : Fault}
    (h : P.cost durations ρ call = .error e) :
    P.Broken durations e ∨ ∃ g, P.forest.target? call = some g ∧
      P.mean (P.cost durations (ρ.substitute call)) g (ρ.substitute call) = .error e := by
  cases hg : P.forest.target? call with
  | none =>
    rw [cost_of_target?_eq_none hg] at h
    cases h
  | some g =>
    rw [cost_eq hP durations ρ hg] at h
    cases hv : durations.measured? g with
    | some v =>
      simp only [hv] at h
      obtain hn | ⟨n, -, h⟩ := error_of_bind h
      · exact .inl (.inr ⟨g, mem_of_target? hg, v, hv, hn⟩)
      · cases h
    | none =>
      simp only [hv] at h
      obtain hm | ⟨m, -, h⟩ := error_of_bind h
      · exact .inr ⟨g, rfl, hm⟩
      · cases h

/-- A mean fails at a condition, at a measured duration or because it is too large. -/
theorem cause_of_mean_eq_error (hP : P.Plain) {σ : Signature} (ha : P.Arises g σ) {e : Fault}
    (h : P.mean (P.cost durations σ) g σ = .error e) :
    P.Broken durations e ∨ e = .quotientTooLarge := by
  have hg := ha.mem
  induction hr : P.forest.rank P.functions g using Nat.strongRecOn generalizing g σ with
  | _ n ih =>
    subst hr
    rw [mean] at h
    split at h
    · next hk =>
      obtain ht | ⟨ps, ht, h⟩ := error_of_bind h
      · -- A call in `g` fails, and what it calls is of a lower rank.
        obtain ⟨call, hc, hcost⟩ := exists_cost_eq_error hP hg ht
        obtain hb | ⟨k, hk, hm⟩ := cause_of_cost_eq_error hP hcost
        · exact .inl hb
        · exact ih _ (Forest.rank_lt hg (hP.acyclic g hg) (calls_of_target? hc hk)) (.call ha hc hk)
            hm (mem_of_target? hk) rfl
      · have hps := exists_timed_of_timedPaths ht
        obtain hc | ⟨qs, hc, h⟩ := error_of_bind h
        · obtain ⟨q, hq, c, hcq, he⟩ := Path.candidates_eq_error hc
          obtain ⟨p, hp, d, rfl⟩ := hps q hq
          rw [Path.conditions_timed] at hcq
          have hb := (in_of_mem_paths hg (hP.flat g hg) p hp).conditions c hcq
          exact .inl (.inl ⟨g, σ, ha, hk, c.1, hb, c.2, he⟩)
        · refine .inr (Path.average_eq_error (fun q hq => ?_) h)
          obtain ⟨p, -, hd⟩ := hps q ((Path.sublist_of_candidates hc).subset hq)
          exact ⟨p, hd⟩
    · cases h

def Overflows (P : Program) (durations : Durations) : Prop :=
  ∃ f ρ call g, P.Arises f ρ ∧ call ∈ body f ∧ P.forest.target? call = some g ∧
    P.mean (P.cost durations (ρ.substitute call)) g (ρ.substitute call) = .error .quotientTooLarge

theorem Fails.cause (hP : P.Plain) {e : Fault} (h : P.Fails durations e) :
    P.Broken durations e ∨ e = .quotientTooLarge ∧ P.Overflows durations := by
  obtain ⟨f, ρ, call, g, ha, hc, hg, hm | ⟨v, hv, hn⟩⟩ := h
  · obtain hb | rfl := cause_of_mean_eq_error hP (.call ha hc hg) hm
    · exact .inl hb
    · exact .inr ⟨rfl, f, ρ, call, g, ha, hc, hg, hm⟩
  · exact .inl (.inr ⟨g, mem_of_target? hg, v, hv, hn⟩)

/-- Lists of values that are closed under calls, for which nothing fails. -/
structure Covered (P : Program) (durations : Durations) (S : List Signature) : Prop where
  simple : ∀ σ ∈ S, ∀ o ∈ σ, o.all (decide ·.Simple) = true
  roots : ∀ f ∈ P.functions, S.any (·.agrees (f.parameters.map fun _ => none)) = true
  calls : ∀ f ∈ P.functions, ∀ call ∈ body f, ∀ ρ ∈ S,
    call.isCall = true → S.any (·.agrees (ρ.substitute call)) = true
  conditions : ∀ f ∈ P.functions, ∀ branch ∈ body f, ∀ taken ∈ [true, false], ∀ σ ∈ S,
    σ.known = true → (Artifact.branchPossible (Path.conditionOf branch) taken
      (σ.literals P.forest)).isOk = true
  measured : ∀ f ∈ P.functions, ∀ v ∈ durations.measured? f, v.toInt.isOk = true
  means : ∀ f ∈ P.functions, ∀ σ ∈ S, (P.mean (P.cost durations σ) f σ).isOk = true

variable {S : List Signature}

theorem Covered.mem_of_agrees (h : P.Covered durations S) {σ : Signature}
    (ha : S.any (·.agrees σ) = true) : σ ∈ S := by
  obtain ⟨τ, hτ, ha⟩ := List.any_eq_true.mp ha
  have hsimple : ∀ v, some v ∈ τ → v.Simple :=
    fun v hv => of_decide_eq_true (h.simple τ hτ (some v) hv)
  exact Signature.eq_of_agrees hsimple ha ▸ hτ

theorem Covered.mem (h : P.Covered durations S) {σ : Signature} (ha : P.Arises f σ) : σ ∈ S := by
  induction ha with
  | root hf => exact h.mem_of_agrees (h.roots _ hf)
  | call ha hc hg ih =>
    exact h.mem_of_agrees (h.calls _ ha.mem _ hc _ ih (isCall_of_target? hg))

theorem Covered.not_broken (h : P.Covered durations S) (e : Fault) : ¬P.Broken durations e := by
  rintro (⟨g, σ, ha, hk, branch, hb, taken, he⟩ | ⟨g, hg, v, hv, he⟩)
  · have ht : taken ∈ [true, false] := by cases taken <;> simp
    have hok := h.conditions g ha.mem branch hb taken ht σ (h.mem ha) hk
    rw [he] at hok
    cases hok
  · have hok := h.measured g hg v hv
    rw [he] at hok
    cases hok

theorem Covered.not_overflows (h : P.Covered durations S) : ¬P.Overflows durations := by
  rintro ⟨f, ρ, call, g, ha, hc, hg, he⟩
  have hok := h.means g (mem_of_target? hg) _ (h.mem (.call ha hc hg))
  rw [he] at hok
  cases hok

end CallTime.Program

import CallTime.Analysis.Pass
import CallTime.Proofs.Reference

/-!
Arguments that are constants or parameters, as values.

Main statements: resolving the arguments of a call is substitution, arguments that agree have equal
values, and the paths that arguments allow depend on their values only.
-/

namespace CallTime

open Artifact (under)

theorem Binary64.Extended.ofInt_injective {a b : Int} (h : ofInt a = ofInt b) : a = b := by
  have hu : (Binary64.unitsPerOne : Int) ≠ 0 := by
    rw [Binary64.unitsPerOne, Nat.one_shiftLeft]
    exact Int.natCast_ne_zero.mpr (Nat.ne_of_gt (Nat.two_pow_pos 1074))
  injection h with h
  exact Int.eq_of_mul_eq_mul_right hu h

theorem Value.Simple.eq_of_same {a b : Value} (ha : a.Simple) (hk : a.kind = b.kind)
    (h : a.same b = true) : a = b := by
  rw [same, Bool.or_eq_true] at h
  cases a with
  | null => cases b <;> cases hk; rfl
  | bool x =>
    cases b <;> cases hk
    next y =>
    have hxy : (if x then 1 else 0 : Int) = if y then 1 else 0 := by
      obtain h | h := h
      · cases h
      · exact Binary64.Extended.ofInt_injective (of_decide_eq_true h)
    cases x <;> cases y <;> first | rfl | cases hxy
  | int x =>
    cases b <;> cases hk
    obtain h | h := h
    · cases h
    · rw [Binary64.Extended.ofInt_injective (of_decide_eq_true h)]
  | str x =>
    cases b <;> cases hk
    exact congrArg Value.str (h.elim (by rintro ⟨⟩) eq_of_beq)
  | bytes x =>
    cases b <;> cases hk
    exact congrArg Value.bytes (h.elim (by rintro ⟨⟩) eq_of_beq)
  | _ => cases ha

theorem Signature.eq_of_agrees {σ τ : Signature} (hσ : ∀ v, some v ∈ σ → v.Simple)
    (h : σ.agrees τ = true) : σ = τ := by
  induction σ generalizing τ with
  | nil =>
    cases τ with
    | nil => rfl
    | cons => cases h
  | cons a σ ih =>
    cases τ with
    | nil => cases h
    | cons b τ =>
      rw [agrees, Bool.and_eq_true] at h
      rw [ih (fun v hv => hσ v (List.mem_cons_of_mem a hv)) h.2]
      congr 1
      cases a <;> cases b
      · rfl
      · cases h.1
      · cases h.1
      · have hab := h.1
        simp only [agreesAt, Bool.and_eq_true, decide_eq_true_eq] at hab
        exact congrArg some ((hσ _ List.mem_cons_self).eq_of_same hab.1 hab.2)

theorem argumentAt_of_nonneg {α : Type} (as : List α) {index : Int} (h : 0 ≤ index) :
    argumentAt as index = .ok as[index.toNat]? := by
  unfold argumentAt
  split
  · next hl =>
    rw [List.getElem?_eq_none]
    omega
  · rfl

theorem argumentAt_map {α β : Type} (as : List α) (f : α → β) (index : Int) :
    argumentAt (as.map f) index = (argumentAt as index).map (Option.map f) := by
  unfold argumentAt
  simp only [List.length_map, List.getElem?_map]
  split
  · rfl
  · split
    · rfl
    · split <;> rfl

theorem mem_of_argumentAt {α : Type} {as : List α} {index : Int} {a : α}
    (h : argumentAt as index = .ok (some a)) : a ∈ as := by
  unfold argumentAt at h
  split at h
  · cases h
  · split at h
    · exact List.mem_of_getElem? (Except.ok.inj h)
    · split at h
      · cases h
      · exact List.mem_of_getElem? (Except.ok.inj h)

theorem Artifact.closedValue_eq {a : Artifact} (h : a.Constant ∨ a.Parameter) :
    a.closedValue.value = .ok (a.under []) := by
  cases a with
  | literal => rfl
  | reference info name parameter =>
    cases parameter with
    | none => rfl
    | some index =>
      have hi : 0 ≤ index := h.elim (fun h => h) fun h => h
      simp only [closedValue, valueWith, unbound, argumentAt_of_nonneg _ hi]
      rfl
  | _ => cases h <;> contradiction

theorem Signature.of_eq {as : List Artifact} (h : ∀ a ∈ as, a.Constant ∨ a.Parameter) :
    Signature.of as = .ok (as.map (under [])) :=
  mapM_eq_ok fun a ha => Artifact.closedValue_eq (h a ha)

theorem fullyResolved_eq {as : List Artifact} (h : ∀ a ∈ as, a.Constant) :
    fullyResolved as = Signature.known (as.map (under [])) := by
  have heach : ∀ a ∈ as, a.isParameter = !(under [] a).isSome := by
    intro a ha
    have hc := h a ha
    cases a with
    | literal => rfl
    | reference info name parameter =>
      cases parameter with
      | none => cases hc
      | some index => rfl
    | _ => cases hc
  rw [fullyResolved, Signature.known, List.all_map, List.not_any_eq_all_not]
  rw [Bool.eq_iff_iff, List.all_eq_true, List.all_eq_true]
  refine forall₂_congr fun a ha => ?_
  rw [heach a ha, Bool.not_not]
  rfl

namespace Program

variable {P : Program} {f g : Function} {call : Artifact}

def Given (P : Program) (arguments : List Artifact) : Prop :=
  ∀ a ∈ arguments, a.Constant ∧ P.forest.Holds a

theorem mem_body_of_mem_children (hc : call ∈ body f) {a : Artifact} (ha : a ∈ call.children) :
    a ∈ body f :=
  Artifact.mem_walkFrom_children hc ha

def replacement (outer : List Artifact) : Artifact → Artifact
  | .reference info name (some index) => outer[index.toNat]?.getD (.reference info name (some index))
  | a => a

theorem under_replacement (outer : List Artifact) {a : Artifact} (ha : a.Constant) :
    under [] (replacement outer a) = under (outer.map (under [])) a := by
  cases a with
  | literal => rfl
  | reference info name parameter =>
    cases parameter with
    | none => cases ha
    | some index =>
      simp only [replacement, under, List.getElem?_map]
      cases outer[index.toNat]? <;> rfl
  | _ => cases ha

theorem under_parameter {a : Artifact} (h : a.Parameter) : under [] a = none := by
  cases a with
  | reference info name parameter => cases parameter <;> rfl
  | _ => cases h

theorem under_unknown {ρ : Signature} (hρ : ∀ v ∈ ρ, v = none) (a : Artifact) :
    under ρ a = under [] a := by
  cases a with
  | reference info name parameter =>
    cases parameter with
    | none => rfl
    | some index =>
      simp only [under]
      cases hv : ρ[index.toNat]? with
      | none => rfl
      | some v =>
        rw [hρ v (List.mem_of_getElem? hv)]
        rfl
  | _ => rfl

theorem given_replacement {outer : List Artifact} (ho : P.Given outer) {arguments : List Artifact}
    (ha : P.Given arguments) : P.Given (arguments.map (replacement outer)) := by
  intro b hb
  obtain ⟨a, hm, rfl⟩ := List.mem_map.mp hb
  have hown := ha a hm
  cases a with
  | reference info name parameter =>
    cases parameter with
    | none => exact hown
    | some index =>
      simp only [replacement]
      cases hv : outer[index.toNat]? with
      | none => exact hown
      | some b => exact ho b (List.mem_of_getElem? hv)
  | _ => exact hown

/-- Resolving the arguments of a call is substitution. -/
theorem resolveArguments_eq (hP : P.Plain) {insights : Insights} (hf : f ∈ P.functions)
    (hgiven : ∀ outer, insights.callArgs? f = some outer → P.Given outer) (hc : call ∈ body f)
    (hcall : call.isCall) :
    ∃ arguments, Analysis.resolveArguments P.forest insights call = .ok arguments ∧
      P.Given arguments ∧ arguments.map (under []) =
        Signature.substitute ((insights.effectiveArgs f).map (under [])) call := by
  have hown : P.Given call.children := fun a ha =>
    ⟨hP.constant f hf call hc hcall a ha, holds_body hf (mem_body_of_mem_children hc ha)⟩
  have hencl : ∀ a ∈ body f, P.forest.enclosing? a = some f :=
    fun a ha => enclosing?_of_mem_body (hP.flat f hf) hf ha
  unfold Analysis.resolveArguments Insights.effectiveArgs
  simp only [hencl call hc, Option.bind_some]
  cases ho : insights.callArgs? f with
  | none =>
    refine ⟨call.children, rfl, hown, List.map_congr_left fun a _ => ?_⟩
    refine (under_unknown (fun v hv => ?_) a).symm
    obtain ⟨p, hp, rfl⟩ := List.mem_map.mp hv
    exact under_parameter (hP.parameters f hf p hp)
  | some outer =>
    refine ⟨call.children.map (replacement outer), mapM_eq_ok fun a ha => ?_,
      given_replacement (hgiven outer ho) hown, ?_⟩
    · have hconst := (hown a ha).1
      have he := hencl a (mem_body_of_mem_children hc ha)
      cases a with
      | reference info name parameter =>
        cases parameter with
        | none => cases hconst
        | some index =>
          simp only [he, if_true, argumentAt_of_nonneg outer hconst]
          rfl
      | literal => rfl
      | _ => cases hconst
    · rw [List.map_map]
      exact List.map_congr_left fun a ha => under_replacement outer (hown a ha).1

def standIn (forest : Forest) : Artifact → Artifact
  | .literal _ value _ => .literal ⟨forest.nodes.size, none⟩ value
  | a => a

theorem literals_eq {arguments : List Artifact} (ha : P.Given arguments)
    (hk : Signature.known (arguments.map (under []))) :
    Signature.literals P.forest (arguments.map (under [])) = arguments.map (standIn P.forest) := by
  induction arguments with
  | nil => rfl
  | cons a arguments ih =>
    rw [List.map_cons, Signature.known, List.all_cons, Bool.and_eq_true] at hk
    have hrest := ih (fun b hb => ha b (List.mem_cons_of_mem a hb)) hk.2
    have hc := (ha a List.mem_cons_self).1
    cases a with
    | literal info value place =>
      exact congrArg (Artifact.literal ⟨P.forest.nodes.size, none⟩ value :: ·) hrest
    | reference info name parameter =>
      cases parameter with
      | none => cases hc
      | some index => exact absurd hk.1 (by simp [under])
    | _ => cases hc

theorem boundTo_standIn {arguments : List Artifact} (ha : P.Given arguments)
    (hk : Signature.known (arguments.map (under []))) (info : Info) (name : String)
    (parameter : Option Int) (hr : P.forest.Holds (.reference info name parameter)) :
    (Artifact.boundTo arguments info parameter).view false =
      (Artifact.boundTo (arguments.map (standIn P.forest)) info parameter).view false := by
  cases parameter with
  | none => rfl
  | some index =>
    simp only [Artifact.boundTo, argumentAt_map]
    rcases harg : argumentAt arguments index with e | _ | a
    · rfl
    · rfl
    · have hm := mem_of_argumentAt harg
      have hs : (under [] a).isSome := List.all_eq_true.mp hk _ (List.mem_map_of_mem hm)
      cases a with
      | literal i value place =>
        have hid : i.id ≠ info.id := fun he => by
          have := (ha _ hm).2.eq hr he
          cases this
        have hlt : P.forest.nodes.size ≠ info.id := Nat.ne_of_gt hr.lt
        change Reading.view false (if i.id = info.id then _ else _) =
          Reading.view false (if P.forest.nodes.size = info.id then _ else _)
        rw [if_neg hid, if_neg hlt]
        rfl
      | reference i n p => cases p <;> cases hs
      | _ => cases hs

theorem mem_body_of_mem_condition {branch a : Artifact} (hb : branch ∈ body f)
    (ha : a ∈ Artifact.walkFrom (Path.conditionOf branch).toList) : a ∈ body f := by
  have hc : ∀ c ∈ (Path.conditionOf branch).toList, c ∈ branch.children := by
    cases branch with
    | branch info condition thenBranch elseBranch =>
      exact fun c hc => List.mem_append_left _ (List.mem_append_left _ hc)
    | _ => exact List.forall_mem_nil _
  exact Artifact.forall_mem_walkFrom (fun _ h _ hm => mem_body_of_mem_children h hm)
    (fun c hm => mem_body_of_mem_children hb (hc c hm)) a ha

section Candidates

variable {arguments : List Artifact} (hP : P.ByValue) (ha : P.Given arguments)
  (hk : Signature.known (arguments.map (under []))) (hf : f ∈ P.functions)

include hP ha hk hf

theorem branchPossible_standIn {branch : Artifact} (hb : branch ∈ body f) (taken : Bool) :
    Artifact.branchPossible (Path.conditionOf branch) taken arguments =
      Artifact.branchPossible (Path.conditionOf branch) taken (arguments.map (standIn P.forest)) := by
  have hv := Artifact.view_valueOfOption_congr (Path.conditionOf branch) (.inr (hP f hf branch hb))
    fun info name index hm =>
      boundTo_standIn ha hk info name index (holds_body hf (mem_body_of_mem_condition hb hm))
  exact Artifact.branchPossible_of_view hv taken

theorem admits_standIn {conditions : List (Artifact × Bool)} (hc : ∀ c ∈ conditions, c.1 ∈ body f) :
    Path.admits arguments conditions =
      Path.admits (arguments.map (standIn P.forest)) conditions := by
  induction conditions with
  | nil => rfl
  | cons c conditions ih =>
    obtain ⟨branch, taken⟩ := c
    rw [Path.admits, Path.admits, branchPossible_standIn hP ha hk hf (hc _ List.mem_cons_self) taken,
      ih fun c hm => hc c (List.mem_cons_of_mem _ hm)]

/-- The paths that arguments allow depend on the values of the arguments only. -/
theorem candidates_eq (paths : List Path) (hp : ∀ p ∈ paths, ∀ c ∈ p.conditions, c.1 ∈ body f) :
    Path.candidates arguments paths =
      Path.candidates (Signature.literals P.forest (arguments.map (under []))) paths := by
  rw [literals_eq ha hk]
  induction paths with
  | nil => rfl
  | cons p paths ih =>
    rw [Path.candidates, Path.candidates, admits_standIn hP ha hk hf (hp p List.mem_cons_self),
      ih fun q hq => hp q (List.mem_cons_of_mem p hq)]

end Candidates

theorem Arises.simple (hP : P.Plain) {σ : Signature} (h : P.Arises f σ) :
    ∀ v, some v ∈ σ → v.Simple := by
  induction h with
  | root hf => exact fun v hv => by simp at hv
  | @call f g ρ call h hc hg ih =>
    intro v hv
    obtain ⟨a, ha, hva⟩ := List.mem_map.mp hv
    have hconst := hP.constant f h.mem call hc (isCall_of_target? hg) a ha
    cases a with
    | literal info value place =>
      cases hva
      exact hconst
    | reference info name parameter =>
      cases parameter with
      | none => cases hconst
      | some index =>
        simp only [under, Option.join_eq_some_iff] at hva
        exact ih v (List.mem_of_getElem? hva)
    | _ => cases hconst

end Program

end CallTime

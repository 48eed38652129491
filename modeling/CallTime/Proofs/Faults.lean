import CallTime.Proofs.Operators
import CallTime.Proofs.Constants
import CallTime.Proofs.Durations

/-!
The faults that evaluation ends with.

Main statement: where no reference counts its parameter from the end, evaluating conditions fails in no
other way than taking the truth value of a literal or looking for an entry of one does.
-/

namespace CallTime

theorem Path.fails_average (paths : List Path) : Fails Fault.Mild (average paths) := by
  unfold average
  split
  · exact fails_ok _
  · refine fails_bind (fails_foldlM (fun a b => fails_mild (a.meets_add b).fails) _ _) fun total => ?_
    refine fails_bind (fails_mild (Value.meets_numeric Number.meets_div total _).fails) fun mean => ?_
    exact fails_bind (fails_mild mean.fails_toInt) fun _ => fails_pure _

/-- Values with `T` have truth values and entries, or fail to in a way that `E` allows, and the values
that operators give have `T`. -/
structure Admits (E : Fault → Prop) (T : Value → Prop) : Prop where
  truth : ∀ v, T v → Fails E v.truth
  ordinary : ∀ v : Value, v.Ordinary → T v
  lookup : ∀ v, T v → v.kind = .table → E .missingKey

theorem admits_mild : Admits Fault.Mild fun _ => True :=
  ⟨fun v _ => fails_mild v.fails_truth, fun _ _ => trivial, fun _ _ _ => trivial⟩

variable {E : Fault → Prop} {T : Value → Prop}

namespace Reading

/-- The value is unknown or has `T`. -/
abbrev Known (T : Value → Prop) (r : Option Object) : Prop := ∀ o ∈ r, T o.value

theorem known_none : Known T none := fun v hv => by cases hv

theorem known_some {o : Object} (h : T o.value) : Known T (some o) :=
  fun _ hw => Option.some.inj hw ▸ h

theorem meets_conjunction (hA : Admits E T) {left : Option Object} {right : Reading}
    (hl : Known T left) (hr : Meets E right (Known T)) :
    Meets E (conjunction left right) (Known T) := by
  cases left with
  | some a => exact meets_bind (hA.truth _ (hl a rfl)) fun _ _ => meets_ite hr (meets_pure hl)
  | none =>
    refine meets_bind hr fun r hr => ?_
    cases r with
    | some b =>
      exact meets_bind (hA.truth _ (hr b rfl)) fun _ _ => meets_ite (meets_pure known_none) hr
    | none => exact meets_pure known_none

theorem meets_disjunction (hA : Admits E T) {left : Option Object} {right : Reading}
    (hl : Known T left) (hr : Meets E right (Known T)) :
    Meets E (disjunction left right) (Known T) := by
  cases left with
  | some a => exact meets_bind (hA.truth _ (hl a rfl)) fun _ _ => meets_ite (meets_pure hl) hr
  | none =>
    refine meets_bind hr fun r hr => ?_
    cases r with
    | some b =>
      exact meets_bind (hA.truth _ (hr b rfl)) fun _ _ => meets_ite hr (meets_pure known_none)
    | none => exact meets_pure known_none

theorem meets_operation (hT : ∀ v : Value, v.Ordinary → T v) (op : String) (l : Option Object)
    {r : Option Object} (hr : ∀ b ∈ r, b.value.kind = .table → E .missingKey) :
    Meets E (operation op l r) (Known T) := by
  unfold operation
  split
  · next a b o _ =>
    have ho := o.meets_apply a b
    split
    · next c hc =>
      rw [hc] at ho
      exact known_some (hT _ ho)
    · next hc =>
      rw [hc] at ho
      obtain ho | ho := ho
      · cases ho
      · exact hr b rfl ho.2
    · exact known_none
  · exact known_none

theorem meets_binary (hA : Admits E T) (op : String) {left right : Reading}
    (hl : Meets E left (Known T)) (hr : Meets E right (Known T)) :
    Meets E (binary op left right) (Known T) := by
  refine meets_bind hl fun l hl => meets_ite (meets_conjunction hA hl hr)
    (meets_ite (meets_disjunction hA hl hr) (meets_ite ?_ ?_))
  · cases l with
    | some a =>
      exact meets_bind (hA.truth _ (hl a rfl)) fun _ _ =>
        meets_pure (known_some (hA.ordinary _ trivial))
    | none => exact meets_ok known_none
  · exact meets_bind hr fun r hr =>
      meets_operation hA.ordinary op l fun b hb => hA.lookup _ (hr b hb)

end Reading

theorem meets_argumentAt {α : Type} (as : List α) (index : Int) :
    Meets (· = .outOfRange) (argumentAt as index) fun found => ∀ a ∈ found, a ∈ as := by
  refine meets_iff.mpr ⟨fun e he => ?_, fun found hf a ha => mem_of_argumentAt (ha ▸ hf)⟩
  unfold argumentAt at he
  split at he
  · cases he
  · split at he
    · cases he
    · split at he <;> cases he
      rfl

namespace Artifact

open Reading (Known known_none known_some)

mutual

theorem meets_valueWith (hA : Admits E T) {bound : Info → Option Int → Reading} (a : Artifact)
    (hr : ∀ info name p, .reference info name p ∈ a.walk → Meets E (bound info p) (Known T))
    (hl : ∀ info v place, .literal info v place ∈ a.walk → T v) :
    Meets E (a.valueWith bound) (Known T) := by
  cases a with
  | reference info name parameter => exact hr info name parameter (mem_walk_self _)
  | literal info value place =>
    exact meets_ok (known_some (hl info value place (mem_walk_self _)))
  | binary info op left right =>
    refine Reading.meets_binary hA op (meets_valueOfOption hA left ?_ ?_)
      (meets_valueOfOption hA right ?_ ?_)
    · exact fun i n p hm => hr i n p (mem_walk_operand (.inl hm))
    · exact fun i v p hm => hl i v p (mem_walk_operand (.inl hm))
    · exact fun i n p hm => hr i n p (mem_walk_operand (.inr hm))
    · exact fun i v p hm => hl i v p (mem_walk_operand (.inr hm))
  | _ => exact meets_ok known_none
termination_by structural a

theorem meets_valueOfOption (hA : Admits E T) {bound : Info → Option Int → Reading}
    (a : Option Artifact)
    (hr : ∀ info name p, .reference info name p ∈ walkFrom a.toList → Meets E (bound info p) (Known T))
    (hl : ∀ info v place, .literal info v place ∈ walkFrom a.toList → T v) :
    Meets E (valueOfOption bound a) (Known T) := by
  cases a with
  | none => exact meets_ok known_none
  | some a => exact meets_valueWith hA a hr hl
termination_by structural a

end

/-- No reference in the tree counts its parameter from the end, and its literals have `T`. -/
structure Upright (T : Value → Prop) (a : Artifact) : Prop where
  reference : ∀ info name index, .reference info name (some index) ∈ a.walk → 0 ≤ index
  literal : ∀ info v place, .literal info v place ∈ a.walk → T v

theorem Upright.mem_walk {a b : Artifact} (h : a.Upright T) (hb : b ∈ a.walk) : b.Upright T where
  reference info name index hm := h.reference info name index (mem_walkFrom_of_mem_walk hb hm)
  literal info v place hm := h.literal info v place (mem_walkFrom_of_mem_walk hb hm)

theorem Upright.child {a c : Artifact} (h : a.Upright T) (hc : c ∈ a.children) : c.Upright T :=
  h.mem_walk (mem_walk_children a.mem_walk_self hc)

theorem Upright.meets_closedValue (hA : Admits E T) {a : Artifact} (h : a.Upright T) :
    Meets E a.closedValue (Known T) := by
  refine meets_valueWith hA a (fun info name p hm => ?_) h.literal
  cases p with
  | none => exact meets_ok known_none
  | some index =>
    rw [unbound, argumentAt_of_nonneg _ (h.reference info name index hm)]
    exact meets_pure known_none

theorem Upright.fails_branchPossible (hA : Admits E T) {branch : Artifact} (h : branch.Upright T)
    (taken : Bool) {arguments : List Artifact} (ha : ∀ a ∈ arguments, a.Upright T) :
    Fails E (branchPossible (Path.conditionOf branch) taken arguments) := by
  have hsub : ∀ b ∈ walkFrom (Path.conditionOf branch).toList, b ∈ branch.walk := by
    cases branch with
    | branch info condition thenBranch elseBranch =>
      intro b hb
      rw [walk_eq]
      refine List.mem_cons_of_mem _ ?_
      rw [children, walkFrom_append, walkFrom_append]
      exact List.mem_append_left _ (List.mem_append_left _ hb)
    | _ => exact fun b hb => absurd hb (by simp [Path.conditionOf, walkFrom])
  refine meets_bind (meets_valueOfOption hA _ (fun info name p hm => ?_)
    fun info v place hm => h.literal info v place (hsub _ hm)) fun v _ => ?_
  · cases p with
    | none => exact meets_ok known_none
    | some index =>
      rw [boundTo, argumentAt_of_nonneg _ (h.reference info name index (hsub _ hm))]
      cases hi : arguments[index.toNat]? with
      | none => exact meets_pure known_none
      | some a =>
        exact meets_ite (meets_pure known_none) ((ha a (List.mem_of_getElem? hi)).meets_closedValue hA)
  · cases v with
    | none => exact fails_pure _
    | some v =>
      simp only
      split <;> exact fails_pure _

end Artifact

theorem Signature.fails_of (hA : Admits E T) {arguments : List Artifact}
    (h : ∀ a ∈ arguments, a.Upright T) : Fails E (Signature.of arguments) :=
  fails_mapM fun a ha => fails_bind ((h a ha).meets_closedValue hA).fails fun _ => fails_pure _

theorem Path.fails_candidates (hA : Admits E T) {arguments : List Artifact}
    (ha : ∀ a ∈ arguments, a.Upright T) {paths : List Path}
    (hp : ∀ p ∈ paths, ∀ c ∈ p.conditions, c.1.Upright T) : Fails E (candidates arguments paths) := by
  cases h : candidates arguments paths with
  | ok => exact fails_ok _
  | error e =>
    obtain ⟨p, hpm, c, hc, he⟩ := candidates_eq_error h
    have hm := (hp p hpm c hc).fails_branchPossible hA c.2 ha
    rw [he] at hm
    exact hm

end CallTime

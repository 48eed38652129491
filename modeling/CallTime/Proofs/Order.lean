import CallTime.Proofs.Footprint
import CallTime.Proofs.Program

/-!
The order in which a module calls its functions.

Main statements: where callers come before the functions they call, no function leads to an earlier one,
and after the last call of a function nothing else leads to it.
-/

namespace CallTime

theorem exists_last {α : Type} {p : α → Prop} {as : List α} (h : ∃ a ∈ as, p a) :
    ∃ before a after, as = before ++ a :: after ∧ p a ∧ ∀ b ∈ after, ¬p b := by
  induction as with
  | nil =>
    obtain ⟨_, ha, -⟩ := h
    cases ha
  | cons a as ih =>
    by_cases has : ∃ b ∈ as, p b
    · obtain ⟨before, b, after, rfl, hb, hafter⟩ := ih has
      exact ⟨a :: before, b, after, rfl, hb, hafter⟩
    · obtain ⟨b, hb, hpb⟩ := h
      obtain rfl | hb := List.mem_cons.mp hb
      · exact ⟨[], b, as, rfl, hpb, fun c hc hpc => has ⟨c, hc, hpc⟩⟩
      · exact absurd ⟨b, hb, hpb⟩ has

namespace Program

open Relation

variable {P : Program} {f g c : Function} {call : Artifact} {before after : List Function}

theorem nodup_functions (P : Program) : P.functions.Nodup := by
  have hn := P.unshared
  rw [show moduleOf P.info P.functions = P.module from rfl, walk_module, List.map_cons] at hn
  have hs : (P.functions.map Function.artifact).Sublist
      (P.functions.flatMap fun f => f.artifact.walk) := by
    induction P.functions with
    | nil => exact .slnil
    | cons f fs ih =>
      rw [List.flatMap_cons, walk_function]
      exact (ih.trans (List.sublist_append_right _ _)).cons_cons _
  exact (((List.nodup_cons.mp hn).2.sublist (hs.map _)).of_map _).of_map _

theorem after_eq {before' after' : List Function} (h : P.functions = before ++ c :: after)
    (h' : P.functions = before' ++ c :: after') : after = after' := by
  have hn := P.nodup_functions
  rw [h, List.nodup_append, List.nodup_cons] at hn
  have hc : c ∉ before := fun hc => hn.2.2 c hc c List.mem_cons_self rfl
  exact ((List.append_cons_inj_of_notMem hc hn.2.1.1).mp (h.symm.trans h')).2.2

theorem mem_of_calls (h : P.forest.Calls f g) : g ∈ P.functions := by
  obtain ⟨_, -, ht⟩ := h
  exact mem_of_target? ht

def Called (P : Program) (f : Function) : Prop := ∃ g ∈ P.functions, P.forest.Calls g f

def Ordered (P : Program) : Prop := P.functions.Pairwise fun f g => ¬P.forest.Calls g f

theorem Ordered.mem_of_leads (ho : P.Ordered) (hs : P.functions = before ++ f :: after)
    (h : ReflTransGen P.forest.Calls f g) : g ∈ f :: after := by
  induction h with
  | refl => exact List.mem_cons_self
  | tail _ hcall ih =>
    have hg := mem_of_calls hcall
    rw [hs, List.mem_append] at hg
    obtain hg | hg := hg
    · rw [Ordered, hs, List.pairwise_append] at ho
      exact absurd hcall (ho.2.2 _ hg _ ih)
    · exact hg

theorem Ordered.not_leads (ho : P.Ordered) (hs : P.functions = before ++ f :: after)
    (hg : g ∈ before) : ¬ReflTransGen P.forest.Calls f g := by
  intro h
  have hn := P.nodup_functions
  rw [hs, List.nodup_append] at hn
  exact hn.2.2 g hg g (ho.mem_of_leads hs h) rfl

/-- The last of the calls in `g` that lead to `f` calls it. -/
def Hands (P : Program) (g f : Function) (call : Artifact) : Prop :=
  P.forest.target? call = some f ∧ ∃ before after, body g = before ++ call :: after ∧
    ∀ a ∈ after, ∀ h, P.forest.target? a = some h → ¬ReflTransGen P.forest.Calls h f

/-- The last call of `f` in the module, which is in `c`. -/
structure LastCall (P : Program) (f c : Function) (call : Artifact) : Prop where
  target : P.forest.target? call = some f
  inside : ∃ before after, body c = before ++ call :: after ∧
    ∀ a ∈ after, P.forest.target? a ≠ some f
  caller : ∃ before after, P.functions = before ++ c :: after ∧ ∀ g ∈ after, ¬P.forest.Calls g f

theorem exists_lastCall (h : P.Called f) : ∃ c call, P.LastCall f c call := by
  obtain ⟨before, c, after, hs, ⟨call, hc, ht⟩, hafter⟩ := exists_last h
  have hb : ∃ a ∈ body c, P.forest.target? a = some f := by
    rw [walk_function, List.mem_cons] at hc
    obtain rfl | hc := hc
    · cases ht
    · exact ⟨call, hc, ht⟩
  obtain ⟨l, last, r, hl, ht, hr⟩ := exists_last hb
  exact ⟨c, last, ht, ⟨l, r, hl, hr⟩, before, after, hs, hafter⟩

theorem LastCall.mem (h : P.LastCall f c call) : c ∈ P.functions := by
  obtain ⟨_, _, hs, -⟩ := h.caller
  rw [hs]
  exact List.mem_append_right _ List.mem_cons_self

theorem LastCall.calls (h : P.LastCall f c call) : P.forest.Calls c f := by
  obtain ⟨_, _, hs, -⟩ := h.inside
  refine ⟨call, ?_, h.target⟩
  rw [walk_function, hs]
  exact List.mem_cons_of_mem _ (List.mem_append_right _ List.mem_cons_self)

/-- No function after the last caller leads to the called one. -/
theorem LastCall.not_leads (h : P.LastCall f c call) (ho : P.Ordered)
    (hs : P.functions = before ++ g :: after) (hc : c ∈ before) :
    ¬TransGen P.forest.Calls g f := by
  intro hl
  obtain ⟨k, hk, hkf⟩ := TransGen.tail'_iff.mp hl
  obtain ⟨l, r, rfl⟩ := List.append_of_mem hc
  obtain ⟨before', after', hs', hafter⟩ := h.caller
  rw [List.append_assoc, List.cons_append] at hs
  refine hafter k ?_ hkf
  rw [after_eq hs' hs]
  rw [← List.cons_append, ← List.append_assoc] at hs
  exact List.mem_append_right _ (ho.mem_of_leads hs hk)

theorem LastCall.hands (h : P.LastCall f c call) (ho : P.Ordered) (hn : ¬P.forest.Recursive c) :
    P.Hands c f call := by
  obtain ⟨l, r, hlr, hr⟩ := h.inside
  refine ⟨h.target, l, r, hlr, fun a ha k hk hl => ?_⟩
  have hck : P.forest.Calls c k := by
    refine ⟨a, ?_, hk⟩
    rw [walk_function, hlr]
    exact List.mem_cons_of_mem _ (List.mem_append_right _ (List.mem_cons_of_mem _ ha))
  obtain rfl | ⟨m, hm, hmf⟩ := ReflTransGen.cases_tail hl
  · exact hr a ha hk
  · have hcm : TransGen P.forest.Calls c m := .head' hck hm
    obtain ⟨before, after, hs, hafter⟩ := h.caller
    obtain rfl | hm := List.mem_cons.mp (ho.mem_of_leads hs hcm.to_reflTransGen)
    · exact hn hcm
    · exact hafter m hm hmf

def Ascending (P : Program) (level : Function → Nat) : Prop :=
  ∀ f ∈ P.functions, ∀ call ∈ f.artifact.walk, ∀ g ∈ P.forest.target? call, level f < level g

instance (P : Program) (level : Function → Nat) : Decidable (P.Ascending level) := by
  unfold Ascending
  infer_instance

variable {level : Function → Nat}

theorem Ascending.lt (h : P.Ascending level) (hf : f ∈ P.functions) (hc : P.forest.Calls f g) :
    level f < level g := by
  obtain ⟨call, hc, hg⟩ := hc
  exact h f hf call hc g hg

theorem Ascending.acyclic (h : P.Ascending level) : ∀ f ∈ P.functions, ¬P.forest.Recursive f := by
  have hlt : ∀ f ∈ P.functions, ∀ g, TransGen P.forest.Calls f g → level f < level g := by
    intro f hf g hl
    induction hl with
    | single hc => exact h.lt hf hc
    | tail hl hc ih =>
      obtain ⟨_, -, hk⟩ := TransGen.tail'_iff.mp hl
      exact Nat.lt_trans ih (h.lt (mem_of_calls hk) hc)
  exact fun f hf hr => Nat.lt_irrefl _ (hlt f hf f hr)

theorem Ascending.ordered (h : P.Ascending level) (hp : (P.functions.map level).Pairwise (· < ·)) :
    P.Ordered := by
  rw [List.pairwise_map] at hp
  refine hp.imp_of_mem fun hf hg hlt hc => ?_
  exact Nat.lt_asymm hlt (h.lt hg hc)

end Program

end CallTime

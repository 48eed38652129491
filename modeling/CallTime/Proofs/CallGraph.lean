import Mathlib.Logic.Relation
import CallTime.Artifact.Forest
import CallTime.Proofs.Walk

/-!
Which functions call which, and what lies below a function in that sense.
-/

namespace CallTime

theorem countP_lt {α : Type} {p q : α → Bool} {l : List α} (h : ∀ a ∈ l, q a → p a) {a : α}
    (ha : a ∈ l) (hp : p a) (hq : q a = false) : l.countP q < l.countP p := by
  obtain ⟨l₁, l₂, rfl⟩ := List.append_of_mem ha
  have h₁ : l₁.countP q ≤ l₁.countP p :=
    List.countP_mono_left fun b hb => h b (List.mem_append_left _ hb)
  have h₂ : l₂.countP q ≤ l₂.countP p :=
    List.countP_mono_left fun b hb => h b (List.mem_append_right _ (List.mem_cons_of_mem a hb))
  simp only [List.countP_append, List.countP_cons, hp, hq, if_true, Bool.false_eq_true, if_false]
  omega

open Relation

open Classical in
theorem countP_leads_lt {α : Type} {r : α → α → Prop} {l : List α} {a b : α} (ha : a ∈ l)
    (hr : ¬TransGen r a a) (h : r a b) :
    (l.countP fun c => ReflTransGen r b c) < l.countP fun c => ReflTransGen r a c := by
  refine countP_lt (fun c _ hc => ?_) ha ?_ ?_
  · exact decide_eq_true (ReflTransGen.head h (of_decide_eq_true hc))
  · exact decide_eq_true .refl
  · exact decide_eq_false fun hb => hr (TransGen.head' h hb)

namespace Forest

/-- A call below `f` resolves to `g`. -/
def Calls (forest : Forest) (f g : Function) : Prop :=
  ∃ call ∈ f.artifact.walk, forest.target? call = some g

def Recursive (forest : Forest) (f : Function) : Prop := TransGen forest.Calls f f

/-- The node lies in `f` or in a function that `f` leads to. -/
def Below (forest : Forest) (f : Function) (a : Artifact) : Prop :=
  ∃ g, ReflTransGen forest.Calls f g ∧ a ∈ g.artifact.walk

variable {forest : Forest} {f g : Function} {a c : Artifact}

theorem below_self (forest : Forest) (f : Function) : forest.Below f f.artifact :=
  ⟨f, .refl, f.artifact.mem_walk_self⟩

theorem Below.child (h : forest.Below f a) (hc : c ∈ a.children) : forest.Below f c := by
  obtain ⟨g, hg, ha⟩ := h
  exact ⟨g, hg, Artifact.mem_walk_children ha hc⟩

theorem Below.leads (h : forest.Below f a) (hg : forest.target? a = some g) :
    TransGen forest.Calls f g := by
  obtain ⟨k, hk, ha⟩ := h
  exact TransGen.tail' hk ⟨a, ha, hg⟩

theorem Below.target (h : forest.Below f a) (hg : forest.target? a = some g) :
    forest.Below f g.artifact :=
  ⟨g, (h.leads hg).to_reflTransGen, g.artifact.mem_walk_self⟩

section Rank

open Classical

noncomputable def rank (forest : Forest) (fs : List Function) (f : Function) : Nat :=
  fs.countP fun g => ReflTransGen forest.Calls f g

theorem rank_le_length (forest : Forest) (fs : List Function) (f : Function) :
    forest.rank fs f ≤ fs.length :=
  List.countP_le_length

theorem rank_pos {fs : List Function} (hf : f ∈ fs) : 0 < forest.rank fs f :=
  List.countP_pos_iff.mpr ⟨f, hf, decide_eq_true .refl⟩

/-- A called function leads to fewer functions, unless it leads back. -/
theorem rank_lt {fs : List Function} (hf : f ∈ fs) (hr : ¬forest.Recursive f)
    (h : forest.Calls f g) : forest.rank fs g < forest.rank fs f :=
  countP_leads_lt hf hr h

end Rank

end Forest

end CallTime

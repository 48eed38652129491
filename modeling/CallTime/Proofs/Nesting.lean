import Mathlib.Data.List.Pairwise
import CallTime.Proofs.Order

/-!
Functions inside functions.

A node belongs to the nearest function above it. Main statements: this is the function that the way up
from the node comes to first, and in a program without recursion no function leads to the nodes of one
that leads to it.
-/

namespace CallTime

namespace Artifact

/-- The nodes among some nodes and below them that lie in no function below. -/
inductive Reach (as : List Artifact) : Artifact → Prop
  | here {a : Artifact} (h : a ∈ as) : Reach as a
  | child {a c : Artifact} (h : Reach as a) (ha : a.isFunction = false) (hc : c ∈ a.children) : Reach as c

variable {as bs : List Artifact} {a b : Artifact}

theorem exists_function_or (a : Artifact) :
    (∃ g : Function, g.artifact = a) ∨ Function.ofArtifact? a = none ∧ a.isFunction = false := by
  cases a with
  | function info name qualified parameters body =>
    exact .inl ⟨⟨info, name, qualified, parameters, body⟩, rfl⟩
  | _ => exact .inr ⟨rfl, rfl⟩

theorem Reach.mem_walkFrom (h : Reach as a) : a ∈ walkFrom as := by
  induction h with
  | here h => exact mem_walkFrom_of_mem h
  | child _ _ hc ih => exact mem_walkFrom_children ih hc

theorem Reach.mono (h : Reach as a) (hs : ∀ b ∈ as, Reach bs b) : Reach bs a := by
  induction h with
  | here h => exact hs _ h
  | child _ ha hc ih => exact .child ih ha hc

end Artifact

namespace Forest

variable {forest : Forest} {a b : Artifact}

theorem Sound.holds_of_mem_walk (h : forest.Sound) (ha : forest.Holds a) (hb : b ∈ a.walk) :
    forest.Holds b :=
  Artifact.forall_mem_walkFrom h.closed (fun _ hc => List.mem_singleton.mp hc ▸ ha) b hb

theorem Sound.id_le_of_mem_walk (h : forest.Sound) (ha : forest.Holds a) (hb : b ∈ a.walk) :
    b.id ≤ a.id := by
  have older : ∀ c, forest.Holds c ∧ c.id ≤ a.id → ∀ d ∈ c.children, forest.Holds d ∧ d.id ≤ a.id :=
    fun c hc d hd => ⟨h.closed c hc.1 d hd, Nat.le_trans (Nat.le_of_lt (h.older c hc.1 d hd)) hc.2⟩
  refine (Artifact.forall_mem_walkFrom older (fun c hc => ?_) b hb).2
  obtain rfl := List.mem_singleton.mp hc
  exact ⟨ha, Nat.le_refl _⟩

end Forest

open Artifact (Reach)

/-- The way up from a node below `f` ends at `f` unless it comes through another function. -/
theorem Forest.enclosing?_of_reach {forest : Forest} (sound : forest.Sound) {f : Function}
    (held : forest.Holds f.artifact) {as : List Artifact} {a : Artifact}
    (roots : ∀ b ∈ as, b ∈ f.artifact.children ∧ forest.parent? b.id = some f.id)
    (parent : ∀ b, Reach as b → ∀ c ∈ b.children, forest.parent? c.id = some b.id)
    (ha : Reach as a) : forest.enclosing? a = some f := by
  have older : ∀ b, Reach as b → forest.Holds b ∧ b.id < f.id := by
    intro b hb
    induction hb with
    | here hb => exact ⟨sound.closed _ held _ (roots _ hb).1, sound.older _ held _ (roots _ hb).1⟩
    | child _ _ hc ih =>
      exact ⟨sound.closed _ ih.1 _ hc, Nat.lt_trans (sound.older _ ih.1 _ hc) ih.2⟩
  -- A parent is younger than its children, so the way up from `a` to `f` has at most `f.id - a.id` steps.
  have climb : ∀ fuel b, Reach as b → f.id ≤ b.id + fuel →
      forest.enclosingFrom fuel b.id = some f := by
    intro fuel
    induction fuel with
    | zero => exact fun b hb hle => absurd (older b hb).2 (Nat.not_lt.mpr hle)
    | succ fuel ih =>
      intro b hb hle
      cases hb with
      | here hb =>
        have hnode : forest.nodes[f.id]? = some f.artifact := held
        rw [Forest.enclosingFrom, (roots b hb).2]
        simp only [hnode, Option.bind_some, Function.ofArtifact?_artifact]
      | @child p _ hp hf hc =>
        have hnode : forest.nodes[p.id]? = some p := (older p hp).1
        have hn : Function.ofArtifact? p = none := by
          cases p <;> first | rfl | cases hf
        rw [Forest.enclosingFrom, parent p hp b hc]
        simp only [hnode, Option.bind_some, hn]
        refine ih p hp ?_
        calc f.id ≤ b.id + 1 + fuel := Nat.succ_add_eq_add_succ b.id fuel ▸ hle
          _ ≤ p.id + fuel := Nat.add_le_add_right (sound.older p (older p hp).1 b hc) fuel
  exact climb _ a ha (Nat.le_trans (Nat.le_of_lt held.lt) (Nat.le_add_left _ _))

def Function.Owns (f : Function) (a : Artifact) : Prop := Reach f.artifact.children a

namespace Function

variable {f g : Function} {a c : Artifact} {as : List Artifact}

theorem Owns.mem_walk (h : f.Owns a) : a ∈ f.artifact.walk := by
  rw [Artifact.walk_eq]
  exact List.mem_cons_of_mem _ h.mem_walkFrom

theorem Owns.parent (hn : (Artifact.walkFrom as).Nodup) (hf : f.artifact ∈ Artifact.walkFrom as)
    (ha : a ∈ Artifact.walkFrom as) (hc : c ∈ a.children) (h : f.Owns c) :
    if a.isFunction then f.artifact = a else f.Owns a := by
  cases h with
  | here h =>
    obtain rfl := (Artifact.unique_parent hn ha hc).2 _ hf h
    rfl
  | @child p _ hp hpf hpc =>
    have hmem := Artifact.mem_walkFrom_of_mem_walk hf (Owns.mem_walk hp)
    obtain rfl := (Artifact.unique_parent hn ha hc).2 p hmem hpc
    rw [if_neg (by simp [hpf])]
    exact hp

theorem Owns.not_root (hn : (Artifact.walkFrom as).Nodup) (hf : f.artifact ∈ Artifact.walkFrom as)
    (h : f.Owns a) : a ∉ as := by
  cases h with
  | here h => exact (Artifact.unique_parent hn hf h).1
  | child hp _ hc =>
    exact (Artifact.unique_parent hn (Artifact.mem_walkFrom_of_mem_walk hf (Owns.mem_walk hp)) hc).1

theorem Owns.walk (h : f.Owns a) (flat : ∀ b ∈ a.walk, b.isFunction = false) :
    ∀ b ∈ a.walk, f.Owns b := by
  have step : ∀ b, f.Owns b ∧ b ∈ a.walk → ∀ c ∈ b.children, f.Owns c ∧ c ∈ a.walk :=
    fun b hb c hc => ⟨.child hb.1 (flat b hb.2) hc, Artifact.mem_walk_children hb.2 hc⟩
  intro b hb
  refine (Artifact.forall_mem_walkFrom step (fun c hc => ?_) b hb).1
  rw [List.mem_singleton.mp hc]
  exact ⟨h, a.mem_walk_self⟩

end Function

namespace Program

open Relation

variable {P : Program} {f g k F G : Function} {a b : Artifact}

def Has (P : Program) (f : Function) : Prop := f.artifact ∈ P.module.walk

/-- No function leads back to itself. The calls in a function include those in the functions inside. -/
def Acyclic (P : Program) : Prop := ∀ f ∈ P.functions, ¬P.forest.Recursive f

theorem has_of_mem (hf : f ∈ P.functions) : P.Has f := mem_module hf f.artifact.mem_walk_self

theorem has_of_target? (h : P.forest.target? a = some g) : P.Has g := has_of_mem (mem_of_target? h)

theorem mem_module_of_mem_walk (hf : P.Has f) (ha : a ∈ f.artifact.walk) : a ∈ P.module.walk :=
  Artifact.mem_walkFrom_of_mem_walk hf ha

theorem eq_of_id_eq (ha : a ∈ P.module.walk) (hb : b ∈ P.module.walk) (h : a.id = b.id) : a = b :=
  (holds ha).eq (holds hb) h

theorem mem_body (ha : a ∈ body f) : a ∈ f.artifact.walk :=
  walk_function f ▸ List.mem_cons_of_mem _ ha

theorem Has.top (hf : P.Has f) : ∃ F ∈ P.functions, f.artifact ∈ F.artifact.walk := by
  unfold Has at hf
  rw [walk_module, List.mem_cons] at hf
  obtain hf | hf := hf
  · cases hf
  · exact List.mem_flatMap.mp hf

theorem top_unique (hF : F ∈ P.functions) (hG : G ∈ P.functions) (ha : a ∈ F.artifact.walk)
    (hb : a ∈ G.artifact.walk) : F = G := by
  have hn := P.unshared
  rw [show moduleOf P.info P.functions = P.module from rfl, walk_module, List.map_cons] at hn
  have hdisjoint := (List.nodup_flatMap.mp ((List.nodup_cons.mp hn).2.of_map _)).2
  by_contra hne
  have hsymm : Std.Symm (Function.onFun List.Disjoint fun f : CallTime.Function => f.artifact.walk) :=
    ⟨fun _ _ h _ h₁ h₂ => h h₂ h₁⟩
  exact hdisjoint.forall hF hG hne ha hb

theorem id_le_of_mem_walk (hf : P.Has f) (ha : a ∈ f.artifact.walk) : a.id ≤ f.id :=
  P.sound.id_le_of_mem_walk (holds hf) ha

theorem id_lt_of_has (hf : P.Has f) (ha : a ∈ body f) : a.id < f.id := by
  obtain ⟨p, hp, hc⟩ : ∃ p ∈ f.artifact.walk, a ∈ p.children := by
    obtain hc | ⟨p, hp, hc⟩ := Artifact.exists_parent_of_mem_walkFrom ha
    · exact ⟨f.artifact, f.artifact.mem_walk_self, hc⟩
    · exact ⟨p, mem_body hp, hc⟩
  exact Nat.lt_of_lt_of_le (P.sound.older p (holds (mem_module_of_mem_walk hf hp)) a hc)
    (id_le_of_mem_walk hf hp)

theorem Has.enclosing? (hf : P.Has f) (ha : f.Owns a) : P.forest.enclosing? a = some f := by
  have hbody : ∀ b, f.Owns b → b ∈ P.module.walk := fun b hb =>
    mem_module_of_mem_walk hf (mem_body hb.mem_walkFrom)
  exact P.forest.enclosing?_of_reach P.sound (holds hf)
    (fun b hb => ⟨hb, P.parent _ hf b hb⟩) (fun b hb => P.parent b (hbody b hb)) ha

theorem exists_owner (ha : a ∈ body f) : ∃ k : Function, k.artifact ∈ f.artifact.walk ∧ k.Owns a := by
  have passes : ∀ b, (b ∈ f.artifact.walk ∧ ∃ k : Function, k.artifact ∈ f.artifact.walk ∧ k.Owns b) →
      ∀ c ∈ b.children, c ∈ f.artifact.walk ∧
        ∃ k : Function, k.artifact ∈ f.artifact.walk ∧ k.Owns c := by
    rintro b ⟨hb, k, hk, ho⟩ c hc
    refine ⟨Artifact.mem_walk_children hb hc, ?_⟩
    obtain ⟨g, rfl⟩ | ⟨-, hfun⟩ := b.exists_function_or
    · exact ⟨g, hb, .here hc⟩
    · exact ⟨k, hk, .child ho hfun hc⟩
  exact (Artifact.forall_mem_walkFrom passes (fun b hb =>
    ⟨Artifact.mem_walk_children f.artifact.mem_walk_self hb, f, f.artifact.mem_walk_self, .here hb⟩)
      a ha).2

theorem not_mem_walk_of_nested (hf : P.Has f) (hk : k.artifact ∈ body f) :
    f.artifact ∉ k.artifact.walk := fun h =>
  Nat.lt_irrefl _ (Nat.lt_of_lt_of_le (id_lt_of_has hf hk)
    (id_le_of_mem_walk (mem_module_of_mem_walk hf (mem_body hk)) h))

theorem walk_subset (hk : k.artifact ∈ f.artifact.walk) (ha : a ∈ k.artifact.walk) :
    a ∈ f.artifact.walk :=
  Artifact.mem_walkFrom_of_mem_walk hk ha

theorem body_subset (hk : k.artifact ∈ body f) (ha : a ∈ body k) : a ∈ body f :=
  Artifact.mem_walkFrom_of_mem_walk hk (mem_body ha)

theorem calls_of_mem (ha : a ∈ f.artifact.walk) (hg : P.forest.target? a = some g) :
    P.forest.Calls f g :=
  ⟨a, ha, hg⟩

theorem calls_of_nested (hk : k.artifact ∈ f.artifact.walk) (h : P.forest.Calls k g) :
    P.forest.Calls f g := by
  obtain ⟨call, hc, hg⟩ := h
  exact ⟨call, walk_subset hk hc, hg⟩

theorem below_of_calls (h : P.forest.Calls f g) (hb : P.forest.Below g a) : P.forest.Below f a := by
  obtain ⟨h', hl, ha⟩ := hb
  exact ⟨h', .head h hl, ha⟩

theorem below_of_nested (hk : k.artifact ∈ f.artifact.walk) (hb : P.forest.Below k a) :
    P.forest.Below f a := by
  obtain ⟨h, hl, ha⟩ := hb
  obtain rfl | ⟨g, hg, hl⟩ := ReflTransGen.cases_head hl
  · exact ⟨f, .refl, walk_subset hk ha⟩
  · exact ⟨h, .head (calls_of_nested hk hg) hl, ha⟩

theorem below_mem_module (hf : P.Has f) (h : P.forest.Below f a) : a ∈ P.module.walk := by
  obtain ⟨g, hl, ha⟩ := h
  refine mem_module_of_mem_walk ?_ ha
  obtain rfl | ⟨_, -, hg⟩ := ReflTransGen.cases_tail hl
  · exact hf
  · exact has_of_mem (mem_of_calls hg)

/-- A called function does not lead to the nodes of the function around the one that calls it. -/
theorem Acyclic.not_below (hP : P.Acyclic) (hF : F ∈ P.functions) (ha : a ∈ F.artifact.walk)
    (hg : P.forest.target? a = some g) (hb : b ∈ F.artifact.walk) : ¬P.forest.Below g b := by
  rintro ⟨h, hl, hbh⟩
  have hh : h ∈ P.functions := by
    obtain rfl | ⟨_, -, hc⟩ := ReflTransGen.cases_tail hl
    · exact mem_of_target? hg
    · exact mem_of_calls hc
  obtain rfl := top_unique hF hh hb hbh
  exact hP F hF (.head' (calls_of_mem ha hg) hl)

theorem Acyclic.not_below_of_calls (hP : P.Acyclic) (hf : P.Has f) (hg : P.forest.Calls f g) :
    ¬P.forest.Below g f.artifact := by
  obtain ⟨F, hF, hfF⟩ := hf.top
  obtain ⟨call, hc, ht⟩ := hg
  exact hP.not_below hF (walk_subset hfF hc) ht hfF

theorem Acyclic.not_below_of_nested (hP : P.Acyclic) (hf : P.Has f) (hk : k.artifact ∈ body f) :
    ¬P.forest.Below k f.artifact := by
  rintro ⟨h, hl, hfh⟩
  obtain rfl | ⟨g, hg, hl⟩ := ReflTransGen.cases_head hl
  · exact not_mem_walk_of_nested hf hk hfh
  · exact hP.not_below_of_calls hf (calls_of_nested (mem_body hk) hg) ⟨h, hl, hfh⟩

/-- The functions are none that `g` leads to or holds. -/
def Clear (P : Program) (fs : List Function) (g : Function) : Prop :=
  ∀ f ∈ fs, P.Has f ∧ ¬P.forest.Below g f.artifact

variable {fs : List Function}

theorem Clear.inactive (h : P.Clear fs g) (hg : P.Has g) : fs.any (·.id = g.id) = false := by
  rw [List.any_eq_false]
  intro k hk hid
  have he : k.artifact = g.artifact := eq_of_id_eq (h k hk).1 hg (of_decide_eq_true hid)
  exact (h k hk).2 (he ▸ Forest.below_self _ g)

theorem Clear.call (h : P.Clear fs f) (hP : P.Acyclic) (hf : P.Has f) (hg : P.forest.Calls f g) :
    P.Clear (f :: fs) g := by
  intro k hk
  obtain rfl | hk := List.mem_cons.mp hk
  · exact ⟨hf, hP.not_below_of_calls hf hg⟩
  · exact ⟨(h k hk).1, fun hb => (h k hk).2 (below_of_calls hg hb)⟩

theorem Clear.nested (h : P.Clear fs f) (hP : P.Acyclic) (hf : P.Has f) (hk : k.artifact ∈ body f) :
    P.Clear (f :: fs) k := by
  intro k' hk'
  obtain rfl | hk' := List.mem_cons.mp hk'
  · exact ⟨hf, hP.not_below_of_nested hf hk⟩
  · exact ⟨(h k' hk').1, fun hb => (h k' hk').2 (below_of_nested (mem_body hk) hb)⟩

section Weight

open Classical

noncomputable def weight (P : Program) (f : Function) : Nat :=
  (P.forest.nodes.toList.filter Artifact.isFunction).countP fun a => P.forest.Below f a

theorem weight_lt (hf : P.Has f) (hs : ∀ a, P.forest.Below g a → P.forest.Below f a)
    (hn : ¬P.forest.Below g f.artifact) : P.weight g < P.weight f :=
  countP_lt (fun a _ ha => decide_eq_true (hs a (of_decide_eq_true ha)))
    (List.mem_filter.mpr ⟨(holds hf).mem, rfl⟩) (decide_eq_true (Forest.below_self _ f))
    (decide_eq_false hn)

theorem Acyclic.weight_call (hP : P.Acyclic) (hf : P.Has f) (hg : P.forest.Calls f g) :
    P.weight g < P.weight f :=
  weight_lt hf (fun _ => below_of_calls hg) (hP.not_below_of_calls hf hg)

theorem Acyclic.weight_nested (hP : P.Acyclic) (hf : P.Has f) (hk : k.artifact ∈ body f) :
    P.weight k < P.weight f :=
  weight_lt hf (fun _ => below_of_nested (mem_body hk)) (hP.not_below_of_nested hf hk)

theorem weight_pos (hf : P.Has f) : 0 < P.weight f :=
  List.countP_pos_iff.mpr ⟨f.artifact, List.mem_filter.mpr ⟨(holds hf).mem, rfl⟩,
    decide_eq_true (Forest.below_self _ f)⟩

theorem weight_le (P : Program) (f : Function) :
    P.weight f ≤ (P.forest.nodes.toList.filter Artifact.isFunction).length :=
  List.countP_le_length

end Weight

/-- The visit of some nodes of a function does not touch its other nodes, and hands arguments to none
of them. -/
theorem Acyclic.not_touches_others (hP : P.Acyclic) (hF : F ∈ P.functions) {as : List Artifact}
    (has : ∀ a ∈ Artifact.walkFrom as, a ∈ F.artifact.walk) (hb : b ∈ F.artifact.walk) {k : Key}
    (hn : k = .callArgs ∨ b ∉ Artifact.walkFrom as) : ¬P.forest.Touches as b.id k := by
  rintro (⟨hk, c, hc, hid⟩ | ⟨h, ⟨call, hc, g, hg, hl⟩, c, hch, hid⟩)
  · obtain rfl := eq_of_id_eq (mem_module hF (has c hc)) (mem_module hF hb) hid
    exact hn.elim hk (absurd hc)
  · have hbelow : P.forest.Below g c := ⟨h, hl, hch⟩
    obtain rfl := eq_of_id_eq (below_mem_module (has_of_target? hg) hbelow) (mem_module hF hb) hid
    exact hP.not_below hF (has call hc) hg hb hbelow

end Program

end CallTime

import CallTime.Proofs.CallGraph
import CallTime.Proofs.Forest

/-!
Modules of functions that share no node.

Main statements: two nodes of such a module have different ids, and the function around a node is the
one whose tree it lies in.
-/

namespace CallTime

def moduleOf (info : Info) (functions : List Function) : Artifact :=
  .block info (functions.map Function.artifact)

/-- A module of functions. Its trees share no node, every node knows its parent, and every function
that a call can resolve to is one of them. -/
structure Program where
  forest : Forest
  info : Info
  functions : List Function
  sound : forest.Sound
  held : forest.Holds (moduleOf info functions)
  unshared : ((moduleOf info functions).walk.map Artifact.id).Nodup
  parent : ∀ a ∈ (moduleOf info functions).walk, ∀ c ∈ a.children, forest.parent? c.id = some a.id
  table : ∀ g ∈ forest.functions.values, g ∈ functions

namespace Program

def module (P : Program) : Artifact := moduleOf P.info P.functions

def body (f : Function) : List Artifact := Artifact.walkFrom f.artifact.children

variable {P : Program} {f g : Function} {a b : Artifact}

theorem walk_module (P : Program) :
    P.module.walk = P.module :: P.functions.flatMap fun f => f.artifact.walk := by
  rw [Artifact.walk_eq, module, moduleOf, Artifact.children, Artifact.walkFrom_eq_flatMap,
    List.flatMap_map]

theorem walk_function (f : Function) : f.artifact.walk = f.artifact :: body f :=
  Artifact.walk_eq f.artifact

theorem mem_module (hf : f ∈ P.functions) (ha : a ∈ f.artifact.walk) : a ∈ P.module.walk := by
  rw [walk_module]
  exact List.mem_cons_of_mem _ (List.mem_flatMap.mpr ⟨f, hf, ha⟩)

theorem holds (ha : a ∈ P.module.walk) : P.forest.Holds a :=
  Artifact.forall_mem_walkFrom P.sound.closed (fun _ h => List.mem_singleton.mp h ▸ P.held) a ha

theorem holds_function (hf : f ∈ P.functions) : P.forest.Holds f.artifact :=
  holds (mem_module hf f.artifact.mem_walk_self)

theorem holds_body (hf : f ∈ P.functions) (ha : a ∈ body f) : P.forest.Holds a :=
  holds (mem_module hf (walk_function f ▸ List.mem_cons_of_mem _ ha))

theorem mem_of_target? (h : P.forest.target? a = some g) : g ∈ P.functions := by
  unfold Forest.target? at h
  split at h
  · exact P.table g (OrderedMap.mem_values_of_get? h)
  · cases h

theorem nodup_walk (hf : f ∈ P.functions) : (f.artifact.walk.map Artifact.id).Nodup := by
  have hn := P.unshared
  rw [show moduleOf P.info P.functions = P.module from rfl, walk_module, List.map_cons] at hn
  refine (List.nodup_cons.mp hn).2.sublist (List.Sublist.map _ ?_)
  obtain ⟨l₁, l₂, he⟩ := List.append_of_mem hf
  rw [he, List.flatMap_append, List.flatMap_cons]
  exact (List.sublist_append_left _ _).trans (List.sublist_append_right _ _)

theorem id_lt_of_mem_body (hf : f ∈ P.functions) (ha : a ∈ body f) : a.id < f.id := by
  have hh := holds_function hf
  have passes : ∀ b, P.forest.Holds b ∧ b.id < f.id →
      ∀ c ∈ b.children, P.forest.Holds c ∧ c.id < f.id :=
    fun b hb c hc => ⟨P.sound.closed b hb.1 c hc, Nat.lt_trans (P.sound.older b hb.1 c hc) hb.2⟩
  exact (Artifact.forall_mem_walkFrom passes
    (fun b hb => ⟨P.sound.closed _ hh b hb, P.sound.older _ hh b hb⟩) a ha).2

/-- The way up from a node below a function ends at this function, as long as no other is nested in
it. -/
theorem enclosing?_of_mem_body (flat : ∀ b ∈ body f, b.isFunction = false) (hf : f ∈ P.functions)
    (ha : a ∈ body f) : P.forest.enclosing? a = some f := by
  have climb : ∀ fuel, ∀ a ∈ body f, f.id ≤ a.id + fuel →
      P.forest.enclosingFrom fuel a.id = some f := by
    intro fuel
    induction fuel with
    | zero =>
      intro a ha hle
      exact absurd (id_lt_of_mem_body hf ha) (Nat.not_lt.mpr hle)
    | succ fuel ih =>
      intro a ha hle
      obtain ⟨p, hp, hc⟩ : ∃ p ∈ f.artifact.walk, a ∈ p.children := by
        obtain hc | ⟨p, hp, hc⟩ := Artifact.exists_parent_of_mem_walkFrom ha
        · exact ⟨f.artifact, f.artifact.mem_walk_self, hc⟩
        · exact ⟨p, walk_function f ▸ List.mem_cons_of_mem _ hp, hc⟩
      have hpm := mem_module hf hp
      have hnode : P.forest.nodes[p.id]? = some p := holds hpm
      rw [Forest.enclosingFrom, P.parent p hpm a hc]
      simp only [hnode, Option.bind_some]
      rw [walk_function, List.mem_cons] at hp
      obtain rfl | hp := hp
      · rfl
      · have hn : Function.ofArtifact? p = none := by
          have := flat p hp
          cases p <;> first | rfl | cases this
        rw [hn]
        refine ih p hp ?_
        calc f.id ≤ a.id + 1 + fuel := Nat.succ_add_eq_add_succ a.id fuel ▸ hle
          _ ≤ p.id + fuel := Nat.add_le_add_right (P.sound.older p (holds hpm) a hc) fuel
  have hlt : f.id < P.forest.nodes.size := (holds_function hf).lt
  exact climb _ a ha (Nat.le_trans (Nat.le_of_lt hlt) (Nat.le_add_left _ _))

end Program

end CallTime

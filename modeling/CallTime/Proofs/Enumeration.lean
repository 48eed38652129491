import CallTime.Proofs.Program

/-!
Enumerating the paths of a function without a bound on the ticks.

Main statement: in a program every function has its paths, the branches and nodes on them lie in the
function, and no branch is met twice on one path.
-/

namespace CallTime

namespace Timed

variable {α β : Type}

/-- Without a bound on the ticks the computation gives `a`, wherever the clock stands. -/
def Gives (x : Timed α) (a : α) : Prop :=
  ∃ k : Int, ∀ m, x (.unbounded m) = (.ok a, .unbounded (m + k))

theorem gives_pure (a : α) : Gives (pure a) a :=
  ⟨0, fun m => by rw [Int.add_zero]; rfl⟩

theorem gives_lift (a : α) : Gives (liftM (.ok a : Except Fault α)) a :=
  ⟨0, fun m => by rw [Int.add_zero]; rfl⟩

theorem gives_tick (n : Nat) : Gives (tick n) () := ⟨n, fun _ => rfl⟩

theorem gives_bind {x : Timed α} {f : α → Timed β} {a : α} {b : β} (hx : Gives x a)
    (hf : Gives (f a) b) : Gives (x >>= f) b := by
  obtain ⟨k, hk⟩ := hx
  obtain ⟨l, hl⟩ := hf
  refine ⟨k + l, fun m => ?_⟩
  change (ExceptT.bindCont f (x (.unbounded m)).1 : StateM Clock _) (x (.unbounded m)).2 = _
  rw [hk, ← Int.add_assoc]
  exact hl (m + k)

theorem gives_mapM {f : α → Timed β} {Q : α → β → Prop} {as : List α}
    (h : ∀ a ∈ as, ∃ b, Gives (f a) b ∧ Q a b) :
    ∃ bs, Gives (as.mapM f) bs ∧ ∀ b ∈ bs, ∃ a ∈ as, Q a b := by
  induction as with
  | nil => exact ⟨[], gives_pure _, List.forall_mem_nil _⟩
  | cons a as ih =>
    obtain ⟨b, hb, hq⟩ := h a List.mem_cons_self
    obtain ⟨bs, hbs, hqs⟩ := ih fun a' ha => h a' (List.mem_cons_of_mem a ha)
    rw [List.mapM_cons]
    refine ⟨b :: bs, gives_bind hb (gives_bind hbs (gives_pure _)), ?_⟩
    rw [List.forall_mem_cons]
    refine ⟨⟨a, List.mem_cons_self, hq⟩, fun b' hb' => ?_⟩
    obtain ⟨a', ha', hq'⟩ := hqs b' hb'
    exact ⟨a', List.mem_cons_of_mem a ha', hq'⟩

end Timed

namespace Path

open Artifact (walk walkFrom walkFrom_cons walkFrom_append)

/-- A way that goes on from another one, over some of the nodes and in their order. -/
structure Partial.Continues (p q : Partial) (nodes : List Artifact) : Prop where
  conditions : ∃ cs, q.conditions = p.conditions ++ cs ∧ (cs.map Prod.fst).Sublist nodes
  artifacts : ∃ ms, q.artifacts = p.artifacts ++ ms ∧ ms.Sublist nodes

namespace Partial

variable {p q r : Partial} {nodes nodes' : List Artifact}

theorem Continues.refl (p : Partial) (nodes : List Artifact) : p.Continues p nodes :=
  ⟨⟨[], (List.append_nil _).symm, List.nil_sublist _⟩,
    ⟨[], (List.append_nil _).symm, List.nil_sublist _⟩⟩

theorem Continues.trans (h : p.Continues q nodes) (h' : q.Continues r nodes') :
    p.Continues r (nodes ++ nodes') := by
  obtain ⟨⟨cs, hc, hcs⟩, ms, hm, hms⟩ := h
  obtain ⟨⟨cs', hc', hcs'⟩, ms', hm', hms'⟩ := h'
  refine ⟨⟨cs ++ cs', ?_, ?_⟩, ms ++ ms', ?_, hms.append hms'⟩
  · rw [hc', hc, List.append_assoc]
  · rw [List.map_append]
    exact hcs.append hcs'
  · rw [hm', hm, List.append_assoc]

theorem Continues.mono (h : p.Continues q nodes) (hs : nodes.Sublist nodes') :
    p.Continues q nodes' := by
  obtain ⟨⟨cs, hc, hcs⟩, ms, hm, hms⟩ := h
  exact ⟨⟨cs, hc, hcs.trans hs⟩, ms, hm, hms.trans hs⟩

theorem continues_meet (p : Partial) (a : Artifact) : p.Continues (p.meet a) [a] :=
  ⟨⟨[], (List.append_nil _).symm, List.nil_sublist _⟩, [a], rfl, List.Sublist.refl _⟩

theorem continues_fork (p : Partial) (condition : Option Artifact) (branch : Artifact) (taken : Bool) :
    p.Continues ((p.meetOption condition).fork branch taken) (branch :: walkFrom condition.toList) := by
  cases condition with
  | none =>
    exact ⟨⟨[(branch, taken)], rfl, List.singleton_sublist.mpr List.mem_cons_self⟩,
      [], (List.append_nil _).symm, List.nil_sublist _⟩
  | some a =>
    refine ⟨⟨[(branch, taken)], rfl, List.singleton_sublist.mpr List.mem_cons_self⟩, [a], rfl, ?_⟩
    exact List.singleton_sublist.mpr (List.mem_cons_of_mem _ a.mem_walk_self)

end Partial

open Partial Timed

/-- A computation that gives ways on from `p`. -/
def Explores (x : Timed (List Partial)) (p : Partial) (nodes : List Artifact) : Prop :=
  ∃ qs, Gives x qs ∧ ∀ q ∈ qs, p.Continues q nodes

mutual

theorem explores (a : Artifact) (p : Partial) : Explores (explore a p) p a.walk := by
  cases a with
  | block info statements =>
    obtain ⟨qs, hg, hq⟩ := exploresAll statements [p]
    refine ⟨qs, hg, fun q h => ?_⟩
    obtain ⟨p', hp, hc⟩ := hq q h
    obtain rfl := List.mem_singleton.mp hp
    rw [Artifact.walk_eq]
    exact hc.mono (List.sublist_cons_self _ _)
  | function => exact ⟨[p], gives_pure _, fun q h => List.mem_singleton.mp h ▸ .refl p _⟩
  | branch info condition thenBranch elseBranch =>
    let branch := Artifact.branch info condition thenBranch elseBranch
    have hwalk : branch.walk = branch :: walkFrom condition.toList ++
        (walkFrom thenBranch.toList ++ walkFrom elseBranch.toList) := by
      simp [branch, Artifact.walk_eq, Artifact.children, walkFrom_append]
    obtain ⟨thens, ht, hts⟩ := exploresOption thenBranch ((p.meetOption condition).fork branch true)
    obtain ⟨elses, he, hes⟩ := exploresOption elseBranch ((p.meetOption condition).fork branch false)
    refine ⟨thens ++ elses, gives_bind (gives_tick 2) (gives_bind ht (gives_bind he (gives_pure _))),
      fun q h => ?_⟩
    change p.Continues q branch.walk
    rw [hwalk]
    obtain h | h := List.mem_append.mp h
    · exact ((p.continues_fork condition branch true).trans (hts q h)).mono
        ((List.Sublist.refl _).append (List.sublist_append_left _ _))
    · exact ((p.continues_fork condition branch false).trans (hes q h)).mono
        ((List.Sublist.refl _).append (List.sublist_append_right _ _))
  | ret info value =>
    refine ⟨_, gives_pure _, fun q h => ?_⟩
    obtain rfl := List.mem_singleton.mp h
    obtain ⟨hc, hm⟩ := p.continues_meet (.ret info value)
    exact Continues.mono ⟨hc, hm⟩ (List.singleton_sublist.mpr (Artifact.mem_walk_self _))
  | _ =>
    refine ⟨_, gives_pure _, fun q h => ?_⟩
    obtain rfl := List.mem_singleton.mp h
    exact (p.continues_meet _).mono (List.singleton_sublist.mpr (Artifact.mem_walk_self _))
termination_by structural a

theorem exploresOption (a : Option Artifact) (p : Partial) :
    Explores (exploreOption a p) p (walkFrom a.toList) := by
  cases a with
  | none => exact ⟨[p], gives_pure _, fun q h => List.mem_singleton.mp h ▸ .refl p _⟩
  | some a => exact explores a p
termination_by structural a

theorem exploresAll (ss : List Artifact) (live : List Partial) :
    ∃ qs, Gives (exploreAll ss live) qs ∧ ∀ q ∈ qs, ∃ p ∈ live, p.Continues q (walkFrom ss) := by
  cases ss with
  | nil => exact ⟨live, gives_pure _, fun q h => ⟨q, h, .refl q _⟩⟩
  | cons s ss =>
    have hs : ∀ p ∈ live, ∃ qs, Gives (if p.finished then return [p] else explore s p) qs ∧
        ∀ q ∈ qs, p.Continues q s.walk := by
      intro p _
      split
      · exact ⟨[p], gives_pure _, fun q h => List.mem_singleton.mp h ▸ .refl p _⟩
      · exact explores s p
    obtain ⟨next, hn, hnext⟩ := gives_mapM hs
    obtain ⟨qs, hg, hq⟩ := exploresAll ss next.flatten
    refine ⟨qs, gives_bind hn hg, fun q h => ?_⟩
    obtain ⟨r, hr, hc⟩ := hq q h
    obtain ⟨rs, hrs, hr⟩ := List.mem_flatten.mp hr
    obtain ⟨p, hp, hpr⟩ := hnext rs hrs
    rw [walkFrom_cons]
    exact ⟨p, hp, (hpr r hr).trans hc⟩
termination_by structural ss

end

theorem check_eq_ok {forest : Forest} {f : Function} (conditions : List (Artifact × Bool))
    (hf : ∀ c ∈ conditions, forest.enclosing? c.1 = some f)
    (hn : (conditions.map fun c => c.1.id).Nodup) (seen : List (NodeId × Bool))
    (hs : ∀ c ∈ conditions, ∀ s ∈ seen, s.1 ≠ c.1.id) : check forest f seen conditions = .ok () := by
  induction conditions generalizing seen with
  | nil => rfl
  | cons c conditions ih =>
    obtain ⟨branch, taken⟩ := c
    have hb : forest.enclosing? branch = some f := hf _ List.mem_cons_self
    have hfind : seen.find? (·.1 = branch.id) = none := by
      rw [List.find?_eq_none]
      intro s hm
      simpa using hs _ List.mem_cons_self s hm
    rw [List.map_cons, List.nodup_cons] at hn
    simp only [check, hb, hfind]
    refine (if_neg fun h => h rfl).trans (ih (fun c hc => hf c (List.mem_cons_of_mem _ hc)) hn.2 _ ?_)
    intro c hc s hm
    obtain rfl | hm := List.mem_cons.mp hm
    · exact fun he => hn.1 (List.mem_map.mpr ⟨c, hc, he.symm⟩)
    · exact hs c (List.mem_cons_of_mem _ hc) s hm

/-- A new path through a function, over branches and nodes below it. -/
structure In (p : Path) (f : Function) : Prop where
  bare : p.data = {}
  conditions : ∀ c ∈ p.conditions, c.1 ∈ Program.body f
  artifacts : ∀ a ∈ p.artifacts, a ∈ Program.body f

end Path

namespace Program

open Timed

def paths (P : Program) (f : Function) : List Path :=
  match (Path.enumerate P.forest f (.unbounded 0)).1 with
  | .ok ps => ps
  | .error _ => []

variable {P : Program} {f : Function}

theorem walk_body_sublist (f : Function) : f.body.walk.Sublist (body f) := by
  rw [body, Function.artifact, Artifact.children, Artifact.walkFrom_append]
  exact List.sublist_append_right _ _

theorem nodup_body (hf : f ∈ P.functions) : ((body f).map Artifact.id).Nodup := by
  have h := nodup_walk hf
  rw [walk_function, List.map_cons] at h
  exact (List.nodup_cons.mp h).2

theorem gives_enumerate (hf : f ∈ P.functions) (flat : ∀ a ∈ body f, a.isFunction = false) :
    ∃ ps, Gives (Path.enumerate P.forest f) ps ∧ ∀ p ∈ ps, p.In f := by
  obtain ⟨ways, hw, hways⟩ := Path.explores f.body {}
  have hmake : ∀ q ∈ ways, ∃ p, Gives
      (liftM (Path.make P.forest f q.conditions q.artifacts) : Timed Path) p ∧ p.In f := by
    intro q hq
    obtain ⟨⟨cs, hc, hcs⟩, ms, hm, hms⟩ := (hways q hq).mono (walk_body_sublist f)
    rw [show q.conditions = cs from hc, show q.artifacts = ms from hm]
    have hin : ∀ c ∈ cs, c.1 ∈ body f := fun c h => hcs.subset (List.mem_map_of_mem h)
    have hok : Path.check P.forest f [] cs = .ok () := by
      refine Path.check_eq_ok cs (fun c h => enclosing?_of_mem_body flat hf (hin c h)) ?_ [] ?_
      · have := (nodup_body hf).sublist (hcs.map Artifact.id)
        rwa [List.map_map] at this
      · exact fun _ _ _ h => absurd h List.not_mem_nil
    refine ⟨{ function := f, conditions := cs, artifacts := ms }, ?_, rfl, hin, fun a h => hms.subset h⟩
    rw [Path.make, hok]
    exact gives_lift _
  obtain ⟨ps, hps, hin⟩ := gives_mapM hmake
  refine ⟨ps, gives_bind hw hps, fun p hp => ?_⟩
  obtain ⟨_, _, h⟩ := hin p hp
  exact h

theorem gives_paths (hf : f ∈ P.functions) (flat : ∀ a ∈ body f, a.isFunction = false) :
    Gives (Path.enumerate P.forest f) (P.paths f) := by
  obtain ⟨ps, hg, -⟩ := gives_enumerate hf flat
  obtain ⟨k, hk⟩ := id hg
  rw [paths, hk]
  exact hg

theorem in_of_mem_paths (hf : f ∈ P.functions) (flat : ∀ a ∈ body f, a.isFunction = false) :
    ∀ p ∈ P.paths f, p.In f := by
  obtain ⟨ps, ⟨k, hk⟩, hin⟩ := gives_enumerate hf flat
  rw [paths, hk]
  exact hin

end Program

end CallTime

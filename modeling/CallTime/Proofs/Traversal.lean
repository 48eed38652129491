import Mathlib
import CallTime.Proofs.Charges
import CallTime.Proofs.Machine
import CallTime.Proofs.Planting

/-!
Traversals of a tree.

The walk keeps the nodes that it has still to come to on a stack. So does the visit of the passes, which
leaves out what lies inside other functions and is interrupted by whatever the passes lead to. Main
statement: in a tree that shares nothing both follow the recursive pre-order, and the ways up agree with
it.
-/

namespace CallTime

open Analysis

/-- Where a visit comes to: a node, at which the passes are made, or a function, which is entered. -/
inductive Analysis.Stop where
  | node (a : Artifact)
  | function (g : Function)

def Analysis.Stop.artifact : Stop → Artifact
  | .node a => a
  | .function g => g.artifact

namespace Artifact

theorem size_le_sizeList {a : Artifact} {as : List Artifact} (h : a ∈ as) : a.size ≤ sizeList as := by
  obtain ⟨before, after, rfl⟩ := List.append_of_mem h
  rw [sizeList_append, sizeList]
  omega

theorem size_lt_of_mem_children {a c : Artifact} (h : c ∈ a.children) : c.size < a.size := by
  have hle := size_le_sizeList h
  rw [size_eq_children a]
  omega

def preorder (a : Artifact) : List Artifact :=
  a :: a.children.attach.flatMap fun c => c.1.preorder
termination_by a.size
decreasing_by exact size_lt_of_mem_children c.2

/-- Where a visit that comes to the node from above stops: at a function, or at the node and then below
it. -/
def halts (a : Artifact) : List Stop :=
  match Function.ofArtifact? a with
  | some g => [.function g]
  | none => .node a :: a.children.attach.flatMap fun c => c.1.halts
termination_by a.size
decreasing_by exact size_lt_of_mem_children c.2

/-- Where a visit that begins at the node stops. This is the pre-order with the functions below it cut
out. -/
def stops (a : Artifact) : List Stop := .node a :: a.children.flatMap halts

theorem preorder_eq (a : Artifact) : a.preorder = a :: a.children.flatMap preorder := by
  rw [preorder]
  conv_rhs => rw [← List.attach_map_subtype_val a.children, List.flatMap_map]

theorem halts_function (g : Function) : g.artifact.halts = [.function g] := by
  rw [halts]
  rfl

theorem halts_eq_stops {a : Artifact} (h : Function.ofArtifact? a = none) : a.halts = a.stops := by
  rw [halts, h, stops]
  conv_rhs => rw [← List.attach_map_subtype_val a.children, List.flatMap_map]

theorem induction_children {P : Artifact → Prop} (h : ∀ a : Artifact, (∀ c ∈ a.children, P c) → P a)
    (a : Artifact) : P a := by
  induction a using preorder.induct with
  | case1 a ih => exact h a fun c hc => ih ⟨c, hc⟩

theorem walk_eq_preorder (a : Artifact) : a.walk = a.preorder := by
  induction a using induction_children with
  | h a ih =>
    rw [walk_eq, preorder_eq, walkFrom_eq_flatMap]
    exact congrArg (a :: ·) (List.flatMap_congr ih)

theorem mem_stops {r : Artifact} {s : Stop} :
    s ∈ r.stops ↔ s = .node r ∨ ∃ c ∈ r.children, s ∈ c.halts := by
  rw [stops, List.mem_cons, List.mem_flatMap]

/-- What a visit stops at was reached without passing a function, and the passes are made only where it is
none. -/
theorem reach_of_mem_halts {a : Artifact} {s : Stop} (h : s ∈ a.halts) :
    Reach [a] s.artifact ∧ ∀ b, s = .node b → b.isFunction = false := by
  induction a using induction_children with
  | h a ih =>
    obtain ⟨g, rfl⟩ | ⟨hf, hn⟩ := a.exists_function_or
    · rw [halts_function, List.mem_singleton] at h
      subst h
      exact ⟨.here List.mem_cons_self, fun b hb => by cases hb⟩
    · rw [halts_eq_stops hf, mem_stops] at h
      obtain rfl | ⟨c, hc, hs⟩ := h
      · refine ⟨.here List.mem_cons_self, fun b hb => ?_⟩
        cases hb
        exact hn
      · obtain ⟨hreach, hnode⟩ := ih c hc hs
        refine ⟨hreach.mono fun d hd => ?_, hnode⟩
        rw [List.mem_singleton.mp hd]
        exact .child (.here List.mem_cons_self) hn hc

theorem mem_halts_self (a : Artifact) : ∃ s ∈ a.halts, s.artifact = a := by
  obtain ⟨g, rfl⟩ | ⟨hf, -⟩ := a.exists_function_or
  · exact ⟨.function g, by simp [halts_function], rfl⟩
  · exact ⟨.node a, by simp [halts_eq_stops hf, stops], rfl⟩

theorem mem_halts_of_child {a b c : Artifact} (h : ∃ s ∈ a.halts, s.artifact = b)
    (hb : b.isFunction = false) (hc : c ∈ b.children) : ∃ s ∈ a.halts, s.artifact = c := by
  induction a using induction_children with
  | h a ih =>
    obtain ⟨s, hs, rfl⟩ := h
    obtain ⟨g, rfl⟩ | ⟨hf, -⟩ := a.exists_function_or
    · rw [halts_function, List.mem_singleton] at hs
      subst hs
      cases hb
    · simp only [halts_eq_stops hf, mem_stops] at hs ⊢
      obtain rfl | ⟨d, hd, hs⟩ := hs
      · obtain ⟨t, ht, he⟩ := c.mem_halts_self
        exact ⟨t, .inr ⟨c, hc, ht⟩, he⟩
      · obtain ⟨t, ht, he⟩ := ih d hd ⟨s, hs, rfl⟩
        exact ⟨t, .inr ⟨d, hd, ht⟩, he⟩

theorem exists_halt_of_reach {as : List Artifact} {b : Artifact} (h : Reach as b) :
    ∃ c ∈ as, ∃ s ∈ c.halts, s.artifact = b := by
  induction h with
  | @here b hb => exact ⟨b, hb, b.mem_halts_self⟩
  | child _ hb hc ih =>
    obtain ⟨d, hd, hs⟩ := ih
    exact ⟨d, hd, mem_halts_of_child hs hb hc⟩

theorem node_mem_stops_iff {r b : Artifact} :
    .node b ∈ r.stops ↔ b = r ∨ Reach r.children b ∧ b.isFunction = false := by
  rw [mem_stops]
  constructor
  · rintro (h | ⟨c, hc, hs⟩)
    · cases h
      exact .inl rfl
    · obtain ⟨hreach, hnode⟩ := reach_of_mem_halts hs
      exact .inr ⟨hreach.mono fun d hd => .here (List.mem_singleton.mp hd ▸ hc), hnode b rfl⟩
  · rintro (rfl | ⟨hreach, hb⟩)
    · exact .inl rfl
    · obtain ⟨c, hc, s, hs, rfl⟩ := exists_halt_of_reach hreach
      cases s with
      | node b => exact .inr ⟨c, hc, hs⟩
      | function g => cases hb

theorem function_mem_stops_iff {r : Artifact} {g : Function} :
    .function g ∈ r.stops ↔ Reach r.children g.artifact := by
  rw [mem_stops]
  constructor
  · rintro (h | ⟨c, hc, hs⟩)
    · cases h
    · exact (reach_of_mem_halts hs).1.mono fun d hd => .here (List.mem_singleton.mp hd ▸ hc)
  · intro hreach
    obtain ⟨c, hc, s, hs, he⟩ := exists_halt_of_reach hreach
    refine .inr ⟨c, hc, ?_⟩
    cases s with
    | node b =>
      have hb := (reach_of_mem_halts hs).2 b rfl
      rw [show b = g.artifact from he] at hb
      cases hb
    | function f =>
      obtain rfl := Function.artifact_injective he
      exact hs

theorem halts_sublist_preorder (a : Artifact) : (a.halts.map Stop.artifact).Sublist a.preorder := by
  induction a using induction_children with
  | h a ih =>
    rw [preorder_eq]
    obtain ⟨g, rfl⟩ | ⟨hf, -⟩ := a.exists_function_or
    · rw [halts_function]
      exact (List.nil_sublist _).cons_cons _
    · rw [halts_eq_stops hf, stops, List.map_cons, List.map_flatMap]
      exact (List.Sublist.flatMap_right _ ih).cons_cons a

theorem stops_sublist_preorder (a : Artifact) : (a.stops.map Stop.artifact).Sublist a.preorder := by
  rw [preorder_eq, stops, List.map_cons, List.map_flatMap]
  exact (List.Sublist.flatMap_right _ fun c _ => c.halts_sublist_preorder).cons_cons a

end Artifact

namespace Analysis

variable {setup : Setup} {enter : Function → Run Unit} {root : NodeId} {a r : Artifact} {g : Function}
  {pending : List Artifact}

def Stop.attend (setup : Setup) (enter : Function → Run Unit) : Stop → Run Unit
  | .node a => do
    Run.tick 1
    (setup.passes.filter (!·.overPaths)).forM (visit setup enter a)
  | .function g => enter g

theorem halts_of_nested? (h : nested? root a = some g) : a.halts = [.function g] := by
  rw [← artifact_of_nested? h]
  exact Artifact.halts_function g

theorem halts_of_nested?_eq_none (h : nested? root a = none) (ha : a.id ≠ root) : a.halts = a.stops := by
  apply Artifact.halts_eq_stops
  rwa [nested?, if_neg ha] at h

theorem attend_node_bind (a : Artifact) (x : Run Unit) :
    (do Run.tick 1; (setup.passes.filter (!·.overPaths)).forM (visit setup enter a); x) =
      Stop.attend setup enter (.node a) >>= fun _ => x :=
  (bind_assoc (m := Run) _ _ _).symm

theorem visitFrom_eq_forM (h : ∀ b ∈ Artifact.walkFrom pending, b.id ≠ root) :
    visitFrom setup enter root pending =
      (pending.flatMap Artifact.halts).forM (Stop.attend setup enter) := by
  induction pending using visitFrom.induct root with
  | case1 =>
    rw [visitFrom]
    rfl
  | case2 a pending g hg ih =>
    rw [Artifact.walkFrom_cons] at h
    have hrest := ih fun b hb => h b (List.mem_append_right _ hb)
    rw [visitFrom, hg, List.flatMap_cons, halts_of_nested? hg]
    exact congrArg (enter g >>= fun _ => ·) hrest
  | case3 a pending hg ih =>
    rw [Artifact.walkFrom] at h
    have hrest := ih fun b hb => h b (List.mem_cons_of_mem _ hb)
    have ha := h a List.mem_cons_self
    rw [List.flatMap_append] at hrest
    rw [visitFrom, hg, List.flatMap_cons, halts_of_nested?_eq_none hg ha, hrest]
    exact attend_node_bind a _

theorem ne_root_of_mem_walkFrom_children (h : (r.walk.map Artifact.id).Nodup) {b : Artifact}
    (hb : b ∈ Artifact.walkFrom r.children) : b.id ≠ r.id := by
  intro he
  rw [Artifact.walk_eq, List.map_cons, List.nodup_cons] at h
  exact h.1 (he ▸ List.mem_map_of_mem hb)

theorem nested?_root (r : Artifact) : nested? r.id r = none := if_pos rfl

/-- The visit of a tree stops in pre-order. -/
theorem visitFrom_eq_stops (h : (r.walk.map Artifact.id).Nodup) :
    visitFrom setup enter r.id [r] = r.stops.forM (Stop.attend setup enter) := by
  have hbelow : visitFrom setup enter r.id r.children = _ :=
    visitFrom_eq_forM fun b hb => ne_root_of_mem_walkFrom_children h hb
  rw [visitFrom, nested?_root, List.append_nil, hbelow]
  exact attend_node_bind r _

/-- Something that a visit does by itself: it makes a pass at a node, or enters a function. -/
inductive Act where
  | pass (a : Artifact) (p : Pass)
  | enter (g : Function)

def Stop.acts (passes : List Pass) : Stop → List Act
  | .node a => (passes.filter (!·.overPaths)).map (.pass a)
  | .function g => [.enter g]

def Task.act? : Task → Option Act
  | .passes a (p :: _) => some (.pass a p)
  | .enter g => some (.enter g)
  | _ => none

/-- What the visit that waits for the next task, and has `depth` tasks below it, is about to do. -/
def Moment.act? (m : Moment) (depth : Nat) : Option Act :=
  match m.tasks with
  | task :: .nodes _ _ :: rest => if rest.length = depth then task.act? else none
  | _ => none

def acts (m : Nat → Moment) (n k depth : Nat) : List Act :=
  (List.range' n (k - n)).filterMap fun j => (m j).act? depth

/-- What was above some tasks at moment `n` has been done at moment `k`, and nothing has failed. -/
structure Finishes (m : Nat → Moment) (n k : Nat) (rest : List Task) : Prop where
  le : n ≤ k
  above : ∀ j, n ≤ j → j < k → rest.length < (m j).tasks.length
  tasks : (m k).tasks = rest
  fault : (m k).fault = none

section Acts

variable {m : Nat → Moment} {n k l depth : Nat} {task : Task} {rest tail more : List Task}

theorem act?_eq_none {x : Moment} (h : x.tasks.length ≠ depth + 2) : x.act? depth = none := by
  unfold Moment.act?
  split
  · next he =>
    apply if_neg
    rintro rfl
    simp [he] at h
  · rfl

theorem acts_append (h : n ≤ l) (h' : l ≤ k) :
    acts m n k depth = acts m n l depth ++ acts m l k depth := by
  have hk : k - n = (l - n) + (k - l) := by omega
  have hl : l = n + (l - n) := by omega
  unfold acts
  rw [hk, ← List.range'_append_1, List.filterMap_append, ← hl]

theorem acts_cons (h : n < k) :
    acts m n k depth = ((m n).act? depth).toList ++ acts m (n + 1) k depth := by
  have hk : k - n = (k - (n + 1)) + 1 := by omega
  unfold acts
  rw [hk, List.range'_succ, List.filterMap_cons]
  cases (m n).act? depth <;> rfl

@[simp] theorem acts_self : acts m n n depth = [] := by simp [acts]

theorem Finishes.acts_eq_nil (h : Finishes m n k rest) (hd : depth + 2 ≤ rest.length) :
    acts m n k depth = [] := by
  unfold acts
  rw [List.filterMap_eq_nil_iff]
  intro j hj
  rw [List.mem_range'_1] at hj
  have habove := h.above j hj.1 (by omega)
  exact act?_eq_none (by omega)

theorem exists_first_le (h : n ≤ k) (hk : (m k).tasks.length ≤ depth) :
    ∃ l, n ≤ l ∧ l ≤ k ∧ (m l).tasks.length ≤ depth ∧
      ∀ j, n ≤ j → j < l → depth < (m j).tasks.length := by
  have hex : ∃ l, n ≤ l ∧ (m l).tasks.length ≤ depth := ⟨k, h, hk⟩
  obtain ⟨hnl, hlen⟩ := Nat.find_spec hex
  refine ⟨Nat.find hex, hnl, Nat.find_min' hex ⟨h, hk⟩, hlen, fun j hj hlt => ?_⟩
  have := Nat.find_min hex hlt
  omega

variable (run : ∀ j, m (j + 1) = step setup (m j))

include run

theorem fault_of_fault_succ (h : (m (n + 1)).fault = none) : (m n).fault = none := by
  rw [run, step] at h
  split at h
  · exact h
  · cases h
  · assumption

theorem fault_of_le (h : n ≤ k) (hk : (m k).fault = none) : (m n).fault = none := by
  induction h with
  | refl => exact hk
  | step _ ih => exact ih (fault_of_fault_succ run hk)

theorem leaves_of_step (ht : (m n).tasks = task :: tail) (hn : (m (n + 1)).fault = none) :
    ∃ next, task.Leaves setup next ∧ (m (n + 1)).tasks = next ++ tail := by
  have hf := fault_of_fault_succ run hn
  rw [run, step, ht, hf] at hn ⊢
  simp only at hn ⊢
  rcases hp : task.perform setup (m n).state with ⟨e | next, s⟩ <;> rw [hp] at hn
  · cases hn
  · exact ⟨next, leaves_of_perform hp, rfl⟩

theorem Finishes.split (h : Finishes m n k rest) (ht : (m n).tasks = more ++ tail)
    (hl : rest.length ≤ tail.length) : ∃ l, Finishes m n l tail ∧ Finishes m l k rest := by
  obtain ⟨l, hnl, hlk, hlen, habove⟩ := exists_first_le h.le (h.tasks ▸ hl)
  have hfault : ∀ j, j ≤ k → (m j).fault = none := fun j hj => fault_of_le run hj h.fault
  have hsuffix : ∀ j, n ≤ j → j ≤ l → ∃ more, (m j).tasks = more ++ tail := by
    intro j hj
    induction j, hj using Nat.le_induction with
    | base => exact fun _ => ⟨more, ht⟩
    | succ j hj ih =>
      intro hlt
      obtain ⟨more, hm⟩ := ih (by omega)
      cases more with
      | nil =>
        have := habove j hj (by omega)
        rw [hm] at this
        simp at this
      | cons task more =>
        obtain ⟨next, -, hnext⟩ := leaves_of_step run hm (hfault (j + 1) (by omega))
        exact ⟨next ++ more, hnext.trans (List.append_assoc _ _ _).symm⟩
  obtain ⟨above, ha⟩ := hsuffix _ hnl (Nat.le_refl _)
  rw [ha, List.length_append] at hlen
  obtain rfl : above = [] := List.length_eq_zero_iff.mp (by omega)
  exact ⟨_, ⟨hnl, habove, ha, hfault _ hlk⟩, ⟨hlk, fun j hj => h.above j (by omega), h.tasks, h.fault⟩⟩

theorem Finishes.begin (h : Finishes m n k rest) (ht : (m n).tasks = task :: tail)
    (hl : rest.length ≤ tail.length) : ∃ next, task.Leaves setup next ∧
      (m (n + 1)).tasks = next ++ tail ∧ Finishes m (n + 1) k rest := by
  have hlt : n < k := by
    apply Nat.lt_of_le_of_ne h.le
    rintro rfl
    rw [h.tasks] at ht
    simp [ht] at hl
  obtain ⟨next, hleaves, hnext⟩ := leaves_of_step run ht (fault_of_le run hlt h.fault)
  exact ⟨next, hleaves, hnext, ⟨hlt, fun j hj => h.above j (by omega), h.tasks, h.fault⟩⟩

omit run in
theorem Finishes.eq_of_tasks (h : Finishes m n k rest) (ht : (m n).tasks = rest) : k = n := by
  by_contra hne
  have := h.above n (Nat.le_refl n) (Nat.lt_of_le_of_ne h.le (Ne.symm hne))
  rw [ht] at this
  omega

theorem Finishes.acts_of_leaves_nil (h : Finishes m n k rest) (ht : (m n).tasks = task :: rest)
    (hnil : ∀ next, task.Leaves setup next → next = []) :
    acts m n k depth = ((m n).act? depth).toList := by
  obtain ⟨next, hleaves, hnext, h'⟩ := h.begin run ht (Nat.le_refl _)
  obtain rfl := hnil next hleaves
  obtain rfl := h'.eq_of_tasks hnext
  rw [acts_cons h'.le, acts_self, List.append_nil]

theorem acts_passes {ps : List Pass} (h : Finishes m n k (.nodes root pending :: rest))
    (ht : (m n).tasks = .passes a ps :: .nodes root pending :: rest) :
    acts m n k rest.length = ps.map (.pass a) := by
  induction ps generalizing n with
  | nil =>
    rw [h.acts_of_leaves_nil run ht (by rintro _ ⟨⟩; rfl), Moment.act?, ht]
    simp [Task.act?]
  | cons p ps ih =>
    obtain ⟨next, hleaves, hnext, h'⟩ := h.begin run ht (Nat.le_refl _)
    obtain ⟨before, hbefore⟩ : ∃ before, next = before ++ [.passes a ps] := by
      cases hleaves with
      | silent => exact ⟨[], rfl⟩
      | @known _ _ _ g => exact ⟨[.settle a g], rfl⟩
      | @called _ _ _ g => exact ⟨[.enter g, .settle a g], rfl⟩
    rw [hbefore, List.append_assoc, List.singleton_append] at hnext
    obtain ⟨l, hfirst, hrest⟩ := h'.split run hnext (by simp)
    rw [acts_cons h'.le, acts_append hfirst.le hrest.le, hfirst.acts_eq_nil (by simp),
      ih hrest hfirst.tasks, Moment.act?, ht]
    simp [Task.act?]

theorem acts_enter (h : Finishes m n k (.nodes root pending :: rest))
    (ht : (m n).tasks = .enter g :: .nodes root pending :: rest) :
    acts m n k rest.length = [.enter g] := by
  have hself : ((m n).act? rest.length).toList = [.enter g] := by simp [Moment.act?, ht, Task.act?]
  obtain ⟨next, hleaves, hnext, h'⟩ := h.begin run ht (Nat.le_refl _)
  rw [acts_cons h'.le, hself]
  cases hleaves with
  | refused =>
    obtain rfl := h'.eq_of_tasks hnext
    simp
  | entered =>
    -- All that the function leads to is done above the task that takes it off the stack.
    change _ = [_, _] ++ .leave :: .nodes root pending :: rest at hnext
    obtain ⟨l, hfirst, hlast⟩ := h'.split run hnext (by simp)
    rw [acts_append hfirst.le hlast.le, hfirst.acts_eq_nil (by simp),
      hlast.acts_of_leaves_nil run hfirst.tasks (by rintro _ ⟨⟩; rfl), Moment.act?, hfirst.tasks]
    simp [Task.act?]

/-- A visit that comes to a node makes the passes there and goes on to the children. -/
theorem acts_node (hn : nested? root a = none) (h : Finishes m n k rest)
    (ht : (m n).tasks = .nodes root (a :: pending) :: rest) :
    ∃ l, Finishes m l k rest ∧ (m l).tasks = .nodes root (a.children ++ pending) :: rest ∧
      acts m n k rest.length = Stop.acts setup.passes (.node a) ++ acts m l k rest.length := by
  obtain ⟨next, hleaves, hnext, h'⟩ := h.begin run ht (Nat.le_refl _)
  cases hleaves with
  | nested _ hg =>
    rw [hn] at hg
    cases hg
  | node =>
    change _ = [_] ++ .nodes root (a.children ++ pending) :: rest at hnext
    obtain ⟨l, hfirst, hrest⟩ := h'.split run hnext (by simp)
    refine ⟨l, hrest, hfirst.tasks, ?_⟩
    rw [acts_cons h'.le, acts_append hfirst.le hrest.le, acts_passes run hfirst hnext,
      act?_eq_none (by simp [ht])]
    rfl

theorem acts_nodes (hp : ∀ b ∈ Artifact.walkFrom pending, b.id ≠ root) (h : Finishes m n k rest)
    (ht : (m n).tasks = .nodes root pending :: rest) :
    acts m n k rest.length = (pending.flatMap Artifact.halts).flatMap (Stop.acts setup.passes) := by
  induction pending using visitFrom.induct root generalizing n with
  | case1 =>
    rw [h.acts_of_leaves_nil run ht (by rintro _ ⟨⟩; rfl), act?_eq_none (by simp [ht])]
    simp
  | case2 a pending g hg ih =>
    obtain ⟨next, hleaves, hnext, h'⟩ := h.begin run ht (Nat.le_refl _)
    cases hleaves with
    | node _ hn =>
      rw [hg] at hn
      cases hn
    | nested _ hg' =>
      obtain rfl := Option.some.inj (hg.symm.trans hg')
      change _ = [_] ++ .nodes root pending :: rest at hnext
      obtain ⟨l, hfirst, hrest⟩ := h'.split run hnext (by simp)
      have hbelow := ih (fun b hb => hp b ?_) hrest hfirst.tasks
      · rw [acts_cons h'.le, acts_append hfirst.le hrest.le, acts_enter run hfirst hnext, hbelow,
          act?_eq_none (by simp [ht]), List.flatMap_cons, List.flatMap_append, halts_of_nested? hg]
        rfl
      · rw [Artifact.walkFrom_cons]
        exact List.mem_append_right _ hb
  | case3 a pending hg ih =>
    rw [Artifact.walkFrom] at hp
    obtain ⟨l, hrest, ht', hacts⟩ := acts_node run hg h ht
    have hbelow := ih (fun b hb => hp b (List.mem_cons_of_mem a hb)) hrest ht'
    rw [hacts, hbelow, List.flatMap_cons, halts_of_nested?_eq_none hg (hp a List.mem_cons_self),
      List.flatMap_append, Artifact.stops]
    rfl

theorem acts_eq_stops (hr : (r.walk.map Artifact.id).Nodup) (h : Finishes m n k rest)
    (ht : (m n).tasks = .nodes r.id [r] :: rest) :
    acts m n k rest.length = r.stops.flatMap (Stop.acts setup.passes) := by
  obtain ⟨l, hrest, ht', hacts⟩ := acts_node run (nested?_root r) h ht
  rw [List.append_nil] at ht'
  rw [hacts, acts_nodes run (fun b hb => ne_root_of_mem_walkFrom_children hr hb) hrest ht']
  rfl

end Acts

/-- In a run that goes through, whatever is begun is finished. -/
theorem exists_finishes (sound : setup.forest.Sound) {insights : Insights} {clock : Clock}
    {start : Artifact} (held : setup.forest.Holds start)
    (hc : Clock.forLimit setup.settings.maxTicks = .ok clock) {paths : Option (List Path)}
    (hresult : (analyze setup insights start).result = .ok paths) {n : Nat} {task : Task}
    {rest : List Task} (ht : (moment setup insights clock start n).tasks = [task] ++ rest) :
    ∃ k, Finishes (moment setup insights clock start) n k rest := by
  obtain ⟨l, hl, houtcome⟩ := exists_moment_eq_analyze sound insights held hc
  have hfault : (moment setup insights clock start l).fault = none := by
    rw [← houtcome, Moment.outcome] at hresult
    split at hresult
    · cases hresult
    · assumption
  have hend := moment_of_le hl (Nat.le_max_right n l)
  have hzero : (moment setup insights clock start (max n l)).tasks.length ≤ 0 := by
    rw [hend, hl]
    exact Nat.le_refl 0
  obtain ⟨k, hnk, hkl, hlen, habove⟩ := exists_first_le (Nat.le_max_left n l) hzero
  have hall : Finishes (moment setup insights clock start) n k [] :=
    ⟨hnk, habove, List.length_eq_zero_iff.mp (Nat.le_zero.mp hlen),
      fault_of_le (moment_succ setup insights clock start) hkl (hend ▸ hfault)⟩
  obtain ⟨k, hk, -⟩ := hall.split (moment_succ setup insights clock start) ht (Nat.zero_le _)
  exact ⟨k, hk⟩

/-- In a tree that was built from the leaves up and shares nothing, a node has the one node whose child
it is for its parent, and the function around it is the nearest one above. The walk from a node is the
recursive pre-order, without repetition. The visit from a node stops in that order and not inside other
functions: it makes the passes in their order, and enters those functions, whatever that leads to. In a
run it does nothing else by itself until it is finished, and in one that goes through it is finished. -/
theorem traversals_follow_preorder (planted : setup.forest.Planted [a]) :
    setup.forest.parent? a.id = none ∧
    (∀ c ∈ a.walk, c ≠ a → ∃ p ∈ a.walk, setup.forest.parent? c.id = some p.id ∧
      ∀ q, setup.forest.Holds q → (c ∈ q.children ↔ q = p)) ∧
    (∀ c ∈ a.walk, ∀ g, setup.forest.enclosing? c = some g ↔ setup.forest.Nearest g c) ∧
    ∀ r ∈ a.walk,
      r.walk = r.preorder ∧ (r.walk.map Artifact.id).Nodup ∧
      (r.stops.map Stop.artifact).Sublist r.preorder ∧
      (∀ b, .node b ∈ r.stops ↔ b = r ∨ Artifact.Reach r.children b ∧ b.isFunction = false) ∧
      (∀ g, .function g ∈ r.stops ↔ Artifact.Reach r.children g.artifact) ∧
      (∀ enter, visitFrom setup enter r.id [r] = r.stops.forM (Stop.attend setup enter)) ∧
      ∀ insights clock start n rest,
        (moment setup insights clock start n).tasks = .nodes r.id [r] :: rest →
        (∀ k, Finishes (moment setup insights clock start) n k rest →
          acts (moment setup insights clock start) n k rest.length =
            r.stops.flatMap (Stop.acts setup.passes)) ∧
        ∀ paths, Clock.forLimit setup.settings.maxTicks = .ok clock → setup.forest.Holds start →
          (analyze setup insights start).result = .ok paths →
          ∃ k, Finishes (moment setup insights clock start) n k rest := by
  have h := planted.rooted
  refine ⟨h.orphan a List.mem_cons_self, fun c => h.parent?_eq,
    fun c hc g => h.enclosing?_eq_some_iff hc, fun r hr => ?_⟩
  have hnodup : (r.walk.map Artifact.id).Nodup := h.nodup.sublist ((Artifact.walk_sublist hr).map _)
  refine ⟨r.walk_eq_preorder, hnodup, r.stops_sublist_preorder, fun b => Artifact.node_mem_stops_iff,
    fun g => Artifact.function_mem_stops_iff, fun enter => visitFrom_eq_stops hnodup,
    fun insights clock start n rest ht => ⟨fun k hk => ?_, ?_⟩⟩
  · exact acts_eq_stops (moment_succ setup insights clock start) hnodup hk ht
  · intro paths hc held hresult
    exact exists_finishes h.sound held hc hresult ht

def nesting : Artifact × Forest :=
  (Forest.build (.defining "outer" [.reference none "x" (some 0)]
    [.defining "inner" [] [], .calling "inner" []])).run {}

def nestingSetup : Setup := { forest := nesting.2 }

def nestingMoment (n : Nat) : Moment := moment nestingSetup {} (.unbounded 0) nesting.1 n

def Act.place : Act → NodeId × Option Pass
  | .pass a p => (a.id, some p)
  | .enter g => (g.id, none)

/-- The function inside is entered where the walk comes to it. That the pass at the call enters it once
more is not an act of the visit. -/
theorem traversals_follow_preorder_nesting :
    nestingSetup.forest.Planted [nesting.1] ∧ nesting.1.walk.map Artifact.id = [5, 0, 4, 2, 1, 3] ∧
      (∃ c ∈ nesting.1.walk, ∃ g : Function, c.id = 1 ∧ g.name = "inner" ∧
        nestingSetup.forest.Nearest g c) ∧
      ∃ rest k, (nestingMoment 1).tasks = .nodes 5 [nesting.1] :: rest ∧
        Finishes nestingMoment 1 k rest ∧
        (acts nestingMoment 1 k rest.length).map Act.place =
          [(5, some .recursiveCall), (5, some .callDuration), (0, some .recursiveCall),
            (0, some .callDuration), (4, some .recursiveCall), (4, some .callDuration), (2, none),
            (3, some .recursiveCall), (3, some .callDuration)] := by
  have planted : nestingSetup.forest.Planted [nesting.1] := Forest.planted_build _ (by decide) .empty
  have hpreorder : nesting.1.preorder.map Artifact.id = [5, 0, 4, 2, 1, 3] := by cbv
  have henclosing : (nesting.1.walk[4]?.bind fun c =>
      (nestingSetup.forest.enclosing? c).map fun g => (c.id, g.name)) = some (1, "inner") := by cbv
  have hresult : (analyze nestingSetup {} nesting.1).result.toOption.isSome = true := by cbv
  have htasks : (nestingMoment 1).tasks = .nodes 5 [nesting.1] :: (nestingMoment 1).tasks.tail := by cbv
  have hstops : (nesting.1.stops.flatMap (Stop.acts nestingSetup.passes)).map Act.place =
      [(5, some .recursiveCall), (5, some .callDuration), (0, some .recursiveCall),
        (0, some .callDuration), (4, some .recursiveCall), (4, some .callDuration), (2, none),
        (3, some .recursiveCall), (3, some .callDuration)] := by cbv
  have held : nestingSetup.forest.Holds nesting.1 := planted.rooted.held _ List.mem_cons_self
  obtain ⟨-, -, hnearest, htree⟩ := traversals_follow_preorder planted
  obtain ⟨hwalk, -, -, -, -, -, hrun⟩ := htree nesting.1 nesting.1.mem_walk_self
  obtain ⟨hacts, hfinishes⟩ := hrun {} (.unbounded 0) nesting.1 1 _ htasks
  refine ⟨planted, hwalk ▸ hpreorder, ?_, ?_⟩
  · obtain ⟨c, hc, hg⟩ := Option.bind_eq_some_iff.mp henclosing
    obtain ⟨g, hg, he⟩ := Option.map_eq_some_iff.mp hg
    have hmem := List.mem_of_getElem? hc
    exact ⟨c, hmem, g, congrArg Prod.fst he, congrArg Prod.snd he, (hnearest c hmem g).mp hg⟩
  · cases hr : (analyze nestingSetup {} nesting.1).result with
    | error e =>
      rw [hr] at hresult
      cases hresult
    | ok paths =>
      obtain ⟨k, hk⟩ := hfinishes paths rfl held hr
      exact ⟨_, k, htasks, hk, (congrArg (List.map Act.place) (hacts k hk)).trans hstops⟩

end Analysis

end CallTime

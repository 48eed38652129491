import CallTime.Proofs.Drafts
import CallTime.Proofs.Nesting

/-!
Trees that share nothing.

A tree is planted in a forest if it was built there from the leaves up and no node of it was given to two
nodes. Main statements: drafts that do not refer to other nodes make such trees; a node below the root has
the one node that it is a child of for its parent, and the function around a node is the nearest one above
it.
-/

namespace CallTime

namespace Draft

mutual

def isSelfContained : Draft → Bool
  | .block _ statements => isSelfContainedList statements
  | .reference _ _ _ | .literal _ _ _ => true
  | .binary _ _ left right => isSelfContainedOption left && isSelfContainedOption right
  | .ret _ value => isSelfContainedOption value
  | .branch _ condition thenBranch elseBranch =>
    isSelfContainedOption condition && isSelfContainedOption thenBranch &&
      isSelfContainedOption elseBranch
  | .call _ _ arguments _ => isSelfContainedList arguments
  | .function _ _ _ parameters body _ => isSelfContainedList parameters && isSelfContained body
  | .labelled _ draft => isSelfContained draft
  | .shared _ => false
termination_by structural d => d

def isSelfContainedList : List Draft → Bool
  | [] => true
  | d :: ds => isSelfContained d && isSelfContainedList ds
termination_by structural ds => ds

def isSelfContainedOption : Option Draft → Bool
  | none => true
  | some d => isSelfContained d
termination_by structural d => d

end

end Draft

namespace Forest

open Artifact

variable {F G : Forest} {as bs cs : List Artifact} {a b c : Artifact} {f g : Function}

/-- The forest was built step by step, and the trees are among what was built there: from the leaves up,
and no node of them was given to two nodes, or twice to one. Nodes outside of the trees may be shared. -/
inductive Planted : Forest → List Artifact → Prop
  | empty : Planted {} []
  /-- A new node takes some of the trees for its children. -/
  | node {F : Forest} {cs as : List Artifact} (h : Planted F (cs ++ as)) (line : Option Nat)
    (make : Info → Artifact) (hid : ∀ info, (make info).info = info)
    (hc : ∀ info, (make info).children = cs) :
    Planted ((add line make).run F).2 (((add line make).run F).1 :: as)
  /-- A new node takes its children from outside of the trees. -/
  | other {F : Forest} {cs as : List Artifact} (h : Planted F as) (line : Option Nat)
    (make : Info → Artifact) (hid : ∀ info, (make info).info = info)
    (hc : ∀ info, (make info).children = cs) (held : ∀ c ∈ cs, F.Holds c ∧ c ∉ walkFrom as) :
    Planted ((add line make).run F).2 as
  | register {F : Forest} {as : List Artifact} {a : Artifact} (h : Planted F as) (key : Option String)
    (held : F.Holds a) : Planted ((register key a).run F).2 as
  | name {F : Forest} {as : List Artifact} {a : Artifact} (h : Planted F as) (label : String)
    (held : F.Holds a) : Planted ((name label a).run F).2 as
  /-- Trees can be rearranged and left out of account. -/
  | select {F : Forest} {as bs : List Artifact} (h : Planted F as) (hs : bs.Subperm as) : Planted F bs

/-- The forest holds the trees, which share no node; their nodes know their parents, and no other node
has a child among them. -/
structure Rooted (F : Forest) (as : List Artifact) : Prop extends Fresh {} F as where
  sound : F.Sound
  held : ∀ a ∈ as, F.Holds a
  apart : ∀ q, F.Holds q → ∀ c ∈ q.children, c ∈ walkFrom as → q ∈ walkFrom as

theorem Rooted.holds (h : Rooted F as) (hb : b ∈ walkFrom as) : F.Holds b :=
  forall_mem_walkFrom h.sound.closed h.held b hb

theorem Rooted.parent_of_child (h : Rooted F as) (hb : F.Holds b) (hc : c ∈ b.children)
    (ha : c ∈ walkFrom as) : F.parent? c.id = some b.id :=
  h.parent b (h.apart b hb c hc ha) c hc

theorem Rooted.subperm (h : Rooted F as) (hs : bs.Subperm as) : Rooted F bs where
  toFresh := h.toFresh.subperm hs
  sound := h.sound
  held a ha := h.held a (hs.subset ha)
  apart q hq c hc hcb := by
    have hroots : ∀ b ∈ walkFrom bs, b ∈ walkFrom as := by
      refine forall_mem_walkFrom (fun b hb d hd => mem_walkFrom_children hb hd) fun b hb => ?_
      exact mem_walkFrom_of_mem (hs.subset hb)
    have hparent := h.parent_of_child hq hc (hroots c hcb)
    obtain hcb | ⟨p, hp, hcp⟩ := exists_parent_of_mem_walkFrom hcb
    · rw [h.orphan c (hs.subset hcb)] at hparent
      cases hparent
    · have hid := h.parent p (hroots p hp) c hcp
      rw [hparent] at hid
      obtain rfl := hq.eq (h.holds (hroots p hp)) (Option.some.inj hid)
      exact hp

theorem Rooted.append (h : Rooted F as) (h' : Rooted F bs)
    (hd : ∀ b ∈ walkFrom as, b ∉ walkFrom bs) : Rooted F (as ++ bs) := by
  have hmem : ∀ b, b ∈ walkFrom (as ++ bs) ↔ b ∈ walkFrom as ∨ b ∈ walkFrom bs := fun b => by
    rw [walkFrom_append, List.mem_append]
  refine ⟨⟨h.sized, h.le, h.kept, ?_, ?_, ?_, ?_⟩, h.sound, ?_, fun q hq c hc hm => ?_⟩
  · exact fun b hb => ((hmem b).mp hb).elim (h.fresh b) (h'.fresh b)
  · rw [walkFrom_append, List.map_append, List.nodup_append]
    refine ⟨h.nodup, h'.nodup, fun i hi j hj he => ?_⟩
    obtain ⟨b, hb, rfl⟩ := List.mem_map.mp hi
    obtain ⟨c, hc, rfl⟩ := List.mem_map.mp hj
    obtain rfl := (h.holds hb).eq (h'.holds hc) he
    exact hd b hb hc
  · exact fun b hb => ((hmem b).mp hb).elim (h.parent b) (h'.parent b)
  · exact fun a ha => (List.mem_append.mp ha).elim (h.orphan a) (h'.orphan a)
  · exact fun a ha => (List.mem_append.mp ha).elim (h.held a) (h'.held a)
  · rw [hmem] at hm ⊢
    exact hm.imp (h.apart q hq c hc) (h'.apart q hq c hc)

theorem Rooted.congr (h : Rooted F as) (hG : G.Sound) (hn : G.nodes = F.nodes)
    (hp : G.parents = F.parents) : Rooted G as := by
  have hholds : ∀ b, G.Holds b ↔ F.Holds b := fun b => by rw [Holds, Holds, hn]
  have hparent : ∀ i, G.parent? i = F.parent? i := fun i => by rw [parent?, parent?, hp]
  refine ⟨⟨?_, Nat.zero_le _, ?_, ?_, h.nodup, ?_, ?_⟩, hG, ?_, ?_⟩
  · rw [hn, hp, h.sized]
  · exact fun i hi => absurd hi (Nat.not_lt_zero i)
  · rw [hn]
    exact h.fresh
  · simpa only [hparent] using h.parent
  · simpa only [hparent] using h.orphan
  · simpa only [hholds] using h.held
  · simpa only [hholds] using h.apart

theorem Rooted.register (h : Rooted F as) (key : Option String) (ha : F.Holds a) :
    Rooted ((register key a).run F).2 as := by
  have hs := (builds_register h.sound key ha).sound
  revert hs
  unfold Forest.register
  split
  · exact fun hs => h.congr hs rfl rfl
  · exact fun _ => h

theorem Rooted.name (h : Rooted F as) (label : String) (ha : F.Holds a) :
    Rooted ((name label a).run F).2 as :=
  h.congr (builds_name h.sound label ha).sound rfl rfl

section Add

variable {make : Info → Artifact} (line : Option Nat) (hid : ∀ info, (make info).info = info)
  (hc : ∀ info, (make info).children = cs)

theorem holds_add (h : ((add line make).run F).2.Holds b) :
    b = ((add line make).run F).1 ∨ F.Holds b := by
  change (F.nodes.push (make ⟨F.nodes.size, line⟩))[b.id]? = some b at h
  rw [Array.getElem?_push] at h
  split at h
  · exact .inl (Option.some.inj h).symm
  · exact .inr h

include hc in
theorem mem_walkFrom_add : b ∈ walkFrom [((add line make).run F).1] ↔
    b = ((add line make).run F).1 ∨ b ∈ walkFrom cs := by
  have hchildren : ((add line make).run F).1.children = cs := hc _
  rw [walkFrom, List.append_nil, hchildren, List.mem_cons]

include hid hc

theorem Rooted.other (h : Rooted F as) (held : ∀ c ∈ cs, F.Holds c ∧ c ∉ walkFrom as) :
    Rooted ((add line make).run F).2 as := by
  have hbuilds := builds_add h.sound line hid fun info c hm => (held c (hc info ▸ hm)).1
  have hsize : ((add line make).run F).2.nodes.size = F.nodes.size + 1 := Array.size_push _
  have hkept : ∀ b ∈ walkFrom as, ((add line make).run F).2.parent? b.id = F.parent? b.id := by
    intro b hb
    refine parent?_add_of_notMem h.sized line hid hc (h.fresh b hb).2 fun hm => ?_
    obtain ⟨c, hcs, he⟩ := List.mem_map.mp hm
    obtain rfl := (held c hcs).1.eq (h.holds hb) he
    exact (held c hcs).2 hb
  refine ⟨⟨?_, Nat.zero_le _, ?_, ?_, h.nodup, ?_, ?_⟩, hbuilds.sound, ?_, ?_⟩
  · rw [hsize]
    exact (size_adopt _ _ _).trans ((Array.size_push _).trans (congrArg (· + 1) h.sized))
  · exact fun i hi => absurd hi (Nat.not_lt_zero i)
  · intro b hb
    rw [hsize]
    exact ⟨Nat.zero_le _, Nat.lt_succ_of_lt (h.fresh b hb).2⟩
  · intro b hb c hcb
    rw [hkept c (mem_walkFrom_children hb hcb)]
    exact h.parent b hb c hcb
  · intro a ha
    rw [hkept a (mem_walkFrom_of_mem ha)]
    exact h.orphan a ha
  · exact fun a ha => hbuilds.keeps a (h.held a ha)
  · intro q hq c hcq hcm
    obtain rfl | hq := holds_add line hq
    · exact absurd hcm (held c (hc _ ▸ hcq)).2
    · exact h.apart q hq c hcq hcm

theorem Rooted.graft (h : Rooted F cs) :
    Rooted ((add line make).run F).2 [((add line make).run F).1] := by
  have hbuilds := builds_add h.sound line hid fun info c hm => h.held c (hc info ▸ hm)
  have hid' : ((add line make).run F).1.id = F.nodes.size := congrArg Info.id (hid _)
  refine ⟨h.toFresh.add line make hid hc, hbuilds.sound, ?_, fun q hq c hcq hm => ?_⟩
  · intro a ha
    rw [List.mem_singleton.mp ha]
    exact hbuilds.gives
  · rw [mem_walkFrom_add line hc] at hm ⊢
    obtain hq | hq := holds_add line hq
    · exact .inl hq
    obtain rfl | hm := hm
    · -- no older node has the new one for a child
      have hlt := h.sound.older q hq _ hcq
      rw [hid'] at hlt
      exact absurd hq.lt (Nat.lt_asymm hlt)
    · exact .inr (h.apart q hq c hcq hm)

theorem Rooted.node (h : Rooted F (cs ++ as)) :
    Rooted ((add line make).run F).2 (((add line make).run F).1 :: as) := by
  have hcs := h.subperm (List.sublist_append_left cs as).subperm
  have has := h.subperm (List.sublist_append_right cs as).subperm
  have hdisjoint : ∀ b ∈ walkFrom cs, b ∉ walkFrom as := by
    have hn := h.nodup.of_map
    rw [walkFrom_append] at hn
    exact fun b hb hb' => (List.nodup_append.mp hn).2.2 b hb b hb' rfl
  refine (hcs.graft line hid hc).append (has.other line hid hc fun c hm => ?_) fun b hb hb' => ?_
  · exact ⟨hcs.held c hm, hdisjoint c (mem_walkFrom_of_mem hm)⟩
  · rw [mem_walkFrom_add line hc] at hb
    obtain rfl | hb := hb
    · have hid' : ((add line make).run F).1.id = F.nodes.size := congrArg Info.id (hid _)
      exact Nat.ne_of_lt (has.fresh _ hb').2 hid'
    · exact hdisjoint b hb hb'

end Add

theorem rooted_empty : Rooted {} [] where
  toFresh := fresh_nil rfl
  sound := sound_empty
  held := List.forall_mem_nil _
  apart _ hq := absurd hq.lt (Nat.not_lt_zero _)

theorem Planted.rooted (h : Planted F as) : Rooted F as := by
  induction h with
  | empty => exact rooted_empty
  | node _ line _ hid hc ih => exact ih.node line hid hc
  | other _ line _ hid hc held ih => exact ih.other line hid hc held
  | register _ key held ih => exact ih.register key held
  | name _ label held ih => exact ih.name label held
  | select _ hs ih => exact ih.subperm hs

theorem Planted.after (h : Planted F (cs ++ (bs ++ as))) : Planted F (bs ++ cs ++ as) := by
  refine h.select (List.Perm.subperm ?_)
  rw [List.append_assoc]
  exact List.perm_append_comm_assoc _ _ _

mutual

theorem planted_build (d : Draft) (hd : d.isSelfContained = true) {F : Forest} {as : List Artifact}
    (h : Planted F as) : Planted ((build d).run F).2 ([((build d).run F).1] ++ as) := by
  have hleaf : Planted F ([] ++ as) := h
  cases d with
  | block line statements =>
    exact (planted_buildList statements hd h).node line (.block · _) (fun _ => rfl) fun _ => rfl
  | reference line name parameter =>
    exact hleaf.node line (.reference · name parameter) (fun _ => rfl) fun _ => rfl
  | literal line value place =>
    exact hleaf.node line (.literal · value place) (fun _ => rfl) fun _ => rfl
  | binary line operator left right =>
    obtain ⟨hl, hr⟩ := Bool.and_eq_true_iff.mp hd
    have hlr := (planted_buildOption right hr (planted_buildOption left hl h)).after
    exact hlr.node line (.binary · operator _ _) (fun _ => rfl) fun _ => rfl
  | ret line value =>
    exact (planted_buildOption value hd h).node line (.ret · _) (fun _ => rfl) fun _ => rfl
  | branch line condition thenBranch elseBranch =>
    obtain ⟨hct, he⟩ := Bool.and_eq_true_iff.mp hd
    obtain ⟨hc, ht⟩ := Bool.and_eq_true_iff.mp hct
    have h' := (planted_buildOption thenBranch ht (planted_buildOption condition hc h)).after
    exact (planted_buildOption elseBranch he h').after.node line (.branch · _ _ _) (fun _ => rfl)
      fun _ => rfl
  | call line name arguments target =>
    exact (planted_buildList arguments hd h).node line (.call · name _ target) (fun _ => rfl)
      fun _ => rfl
  | function line name qualified parameters body key =>
    obtain ⟨hps, hb⟩ := Bool.and_eq_true_iff.mp hd
    have h' := (planted_build body hb (planted_buildList parameters hps h)).after.node line
      (.function · name qualified _ _) (fun _ => rfl) fun _ => rfl
    exact h'.register key (h'.rooted.held _ List.mem_cons_self)
  | labelled label draft =>
    have h' := planted_build draft hd h
    exact h'.name label (h'.rooted.held _ List.mem_cons_self)
  | «shared» label => cases hd
termination_by structural d

theorem planted_buildList (ds : List Draft) (hd : Draft.isSelfContainedList ds = true) {F : Forest}
    {as : List Artifact} (h : Planted F as) :
    Planted ((buildList ds).run F).2 (((buildList ds).run F).1 ++ as) := by
  cases ds with
  | nil => exact h
  | cons d ds =>
    obtain ⟨hd, hds⟩ := Bool.and_eq_true_iff.mp hd
    exact (planted_buildList ds hds (planted_build d hd h)).after
termination_by structural ds

theorem planted_buildOption (d : Option Draft) (hd : Draft.isSelfContainedOption d = true) {F : Forest}
    {as : List Artifact} (h : Planted F as) :
    Planted ((buildOption d).run F).2 (((buildOption d).run F).1.toList ++ as) := by
  cases d with
  | none => exact h
  | some d => exact planted_build d hd h
termination_by structural d

end

theorem Rooted.parent?_eq (h : Rooted F [a]) (hc : c ∈ a.walk) (hne : c ≠ a) :
    ∃ p ∈ a.walk, F.parent? c.id = some p.id ∧ ∀ q, F.Holds q → (c ∈ q.children ↔ q = p) := by
  obtain hca | ⟨p, hp, hcp⟩ := exists_parent_of_mem_walkFrom hc
  · exact absurd (List.mem_singleton.mp hca) hne
  · have hparent := h.parent p hp c hcp
    refine ⟨p, hp, hparent, fun q hq => ⟨fun hcq => ?_, fun he => he ▸ hcp⟩⟩
    have hid := h.parent_of_child hq hcq hc
    rw [hparent] at hid
    exact hq.eq (h.holds hp) (Option.some.inj hid).symm

theorem Rooted.mem_walk_of_above (h : Rooted F [a]) (hb : F.Holds b) (hc : c ∈ b.walk)
    (hca : c ∈ a.walk) : b ∈ a.walk := by
  by_contra hn
  have outside : ∀ d, F.Holds d ∧ d ∉ a.walk → ∀ e ∈ d.children, F.Holds e ∧ e ∉ a.walk :=
    fun d hd e he => ⟨h.sound.closed d hd.1 e he, fun hm => hd.2 (h.apart d hd.1 e he hm)⟩
  refine (forall_mem_walkFrom outside (fun d hd => ?_) c hc).2 hca
  exact List.mem_singleton.mp hd ▸ ⟨hb, hn⟩

/-- The function lies above the node, and any other function above the node lies above it too. -/
structure Nearest (F : Forest) (g : Function) (c : Artifact) : Prop where
  held : F.Holds g.artifact
  above : c ∈ Program.body g
  first : ∀ f : Function, F.Holds f.artifact → c ∈ Program.body f → g.artifact ∈ f.artifact.walk

theorem Rooted.enclosing?_of_owns (h : Rooted F [a]) (hg : g.artifact ∈ a.walk) (ho : g.Owns c) :
    F.enclosing? c = some g := by
  have hbelow : ∀ b, g.Owns b → b ∈ a.walk := fun b hb => mem_walkFrom_of_mem_walk hg hb.mem_walk
  exact F.enclosing?_of_reach h.sound (h.holds hg) (fun b hb => ⟨hb, h.parent _ hg b hb⟩)
    (fun b hb => h.parent b (hbelow b hb)) ho

/-- By induction on the steps of the way up. -/
theorem Rooted.owns_of_enclosingFrom (h : Rooted F [a]) {fuel : Nat} (hc : c ∈ a.walk)
    (he : F.enclosingFrom fuel c.id = some g) : g.artifact ∈ a.walk ∧ g.Owns c := by
  induction fuel generalizing c with
  | zero => cases he
  | succ fuel ih =>
    rw [enclosingFrom] at he
    by_cases hne : c = a
    · rw [hne, h.orphan a List.mem_cons_self] at he
      cases he
    · obtain ⟨p, hp, hparent, hchild⟩ := h.parent?_eq hc hne
      have hcp : c ∈ p.children := (hchild p (h.holds hp)).mpr rfl
      have hnode : F.nodes[p.id]? = some p := h.holds hp
      simp only [hparent, hnode, Option.bind_some] at he
      obtain ⟨f, rfl⟩ | ⟨hf, hn⟩ := p.exists_function_or
      · simp only [Function.ofArtifact?_artifact] at he
        obtain rfl := Option.some.inj he
        exact ⟨hp, .here hcp⟩
      · simp only [hf] at he
        obtain ⟨hg, ho⟩ := ih hp he
        exact ⟨hg, .child ho hn hcp⟩

/-- The way up from a node comes through every function above it, first through the one it belongs to. -/
theorem Rooted.first_of_owns (h : Rooted F [a]) (hg : g.artifact ∈ a.walk) (ho : g.Owns c)
    (hf : F.Holds f.artifact) (hc : c ∈ Program.body f) : g.artifact ∈ f.artifact.walk := by
  have hup : ∀ {b c : Artifact}, b ∈ a.walk → c ∈ b.children → c ∈ Program.body f →
      b ∈ f.artifact.walk := by
    intro b c hb hcb hcf
    obtain ⟨p, hp, hcp⟩ : ∃ p ∈ f.artifact.walk, c ∈ p.children := by
      obtain hcf | ⟨p, hp, hcp⟩ := exists_parent_of_mem_walkFrom hcf
      · exact ⟨f.artifact, f.artifact.mem_walk_self, hcf⟩
      · exact ⟨p, Program.mem_body hp, hcp⟩
    have hpF := h.sound.holds_of_mem_walk hf hp
    have hid := h.parent_of_child hpF hcp (mem_walk_children hb hcb)
    rw [h.parent b hb c hcb] at hid
    obtain rfl := (h.holds hb).eq hpF (Option.some.inj hid)
    exact hp
  have hbelow : ∀ b, g.Owns b → b ∈ a.walk := fun b hb => mem_walkFrom_of_mem_walk hg hb.mem_walk
  induction ho with
  | here hc' => exact hup hg hc' hc
  | @child b c hb hbf hcb ih =>
    refine ih ?_
    have hbw := hup (hbelow b hb) hcb hc
    rw [Program.walk_function, List.mem_cons] at hbw
    refine hbw.resolve_left ?_
    rintro rfl
    cases hbf

theorem Rooted.enclosing?_eq_some_iff (h : Rooted F [a]) (hc : c ∈ a.walk) :
    F.enclosing? c = some g ↔ F.Nearest g c := by
  constructor
  · intro he
    obtain ⟨hg, ho⟩ := h.owns_of_enclosingFrom hc he
    exact ⟨h.holds hg, ho.mem_walkFrom, fun f hf hcf => h.first_of_owns hg ho hf hcf⟩
  · rintro ⟨hg, hcg, hfirst⟩
    have hga := h.mem_walk_of_above hg (Program.mem_body hcg) hc
    obtain ⟨k, hk, ho⟩ := Program.exists_owner hcg
    have hkF := h.sound.holds_of_mem_walk hg hk
    have hgk := hfirst k hkF ho.mem_walkFrom
    have hid := Nat.le_antisymm (h.sound.id_le_of_mem_walk hg hk) (h.sound.id_le_of_mem_walk hkF hgk)
    obtain rfl := Function.artifact_injective (hkF.eq hg hid)
    exact h.enclosing?_of_owns hga ho

end Forest

end CallTime

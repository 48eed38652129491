import Mathlib.Data.List.Nodup
import CallTime.Session

/-!
Forests in which every node that can be met is at its place.

Sharing is allowed: a node may be a child of several nodes. Main statement: whatever drafts are built,
the forest stays sound.
-/

namespace CallTime

namespace Forest

def Holds (forest : Forest) (a : Artifact) : Prop := forest.nodes[a.id]? = some a

/-- Every node has its index for an id, and the forest holds the children of its nodes, which are older
than they are, the functions of its table and the nodes with a label. -/
structure Sound (forest : Forest) : Prop where
  placed : ∀ (i : NodeId) (a : Artifact), forest.nodes[i]? = some a → a.id = i
  closed : ∀ a, forest.Holds a → ∀ c ∈ a.children, forest.Holds c
  older : ∀ a, forest.Holds a → ∀ c ∈ a.children, c.id < a.id
  table : ∀ g ∈ forest.functions.values, forest.Holds g.artifact
  labelled : ∀ label (a : Artifact), forest.named.get? label = some a → forest.Holds a

variable {forest : Forest}

theorem Sound.target (h : forest.Sound) {call : Artifact} {g : Function}
    (hg : forest.target? call = some g) : forest.Holds g.artifact := by
  unfold target? at hg
  split at hg
  · exact h.table g (OrderedMap.mem_values_of_get? hg)
  · cases hg

theorem Holds.lt {a : Artifact} (h : forest.Holds a) : a.id < forest.nodes.size :=
  (Array.getElem?_eq_some_iff.mp h).1

theorem Holds.eq {a b : Artifact} (ha : forest.Holds a) (hb : forest.Holds b) (h : a.id = b.id) :
    a = b := by
  rw [Holds, h, hb] at ha
  exact (Option.some.inj ha).symm

theorem Holds.mem {a : Artifact} (h : forest.Holds a) : a ∈ forest.nodes.toList :=
  Array.mem_toList_iff.mpr (Array.mem_of_getElem? h)

/-- A step of building leaves the forest sound, keeps what it held, and gives something of which
`P` holds in the new forest. -/
structure Builds {α : Type} (forest : Forest) (x : StateM Forest α) (P : Forest → α → Prop) :
    Prop where
  sound : (x.run forest).2.Sound
  keeps : ∀ a, forest.Holds a → (x.run forest).2.Holds a
  gives : P (x.run forest).2 (x.run forest).1

theorem builds_pure {α : Type} {P : Forest → α → Prop} (h : forest.Sound) {a : α} (ha : P forest a) :
    Builds forest (pure a) P :=
  ⟨h, fun _ hb => hb, ha⟩

theorem builds_bind {α β : Type} {P : Forest → α → Prop} {Q : Forest → β → Prop}
    {x : StateM Forest α} {f : α → StateM Forest β} (hx : Builds forest x P)
    (hf : ∀ a next, next.Sound → (∀ b, forest.Holds b → next.Holds b) → P next a →
      Builds next (f a) Q) : Builds forest (x >>= f) Q := by
  have hy := hf _ _ hx.sound hx.keeps hx.gives
  exact ⟨hy.sound, fun a ha => hy.keeps a (hx.keeps a ha), hy.gives⟩

theorem sound_empty : Sound {} where
  placed _ _ h := by simp at h
  closed _ h := by simp [Holds] at h
  older _ h := by simp [Holds] at h
  table _ h := by simp [OrderedMap.values] at h
  labelled _ _ h := by simp [OrderedMap.get?] at h

theorem builds_add (h : forest.Sound) (line : Option Nat) {make : Info → Artifact}
    (hid : ∀ info, (make info).info = info)
    (hc : ∀ info, ∀ c ∈ (make info).children, forest.Holds c) :
    Builds forest (add line make) Holds := by
  have hnew : (make ⟨forest.nodes.size, line⟩).id = forest.nodes.size := by
    rw [Artifact.id, hid]
  have hgrow : ∀ a, forest.Holds a → ((add line make).run forest).2.Holds a := by
    intro a ha
    change (forest.nodes.push _)[a.id]? = some a
    rw [Array.getElem?_push_lt ha.lt, ← ha, Array.getElem?_eq_getElem ha.lt]
  refine ⟨⟨?_, ?_, ?_, fun g hg => hgrow _ (h.table g hg),
    fun label a ha => hgrow _ (h.labelled label a ha)⟩, hgrow, ?_⟩
  · intro i a ha
    change (forest.nodes.push _)[i]? = some a at ha
    rw [Array.getElem?_push] at ha
    split at ha
    · next hi =>
      cases ha
      rw [hnew, hi]
    · exact h.placed i a ha
  · intro a ha c hm
    change (forest.nodes.push _)[a.id]? = some a at ha
    rw [Array.getElem?_push] at ha
    split at ha
    · cases ha
      exact hgrow c (hc _ c hm)
    · exact hgrow c (h.closed a ha c hm)
  · intro a ha c hm
    change (forest.nodes.push _)[a.id]? = some a at ha
    rw [Array.getElem?_push] at ha
    split at ha
    · cases ha
      rw [hnew]
      exact (hc _ c hm).lt
    · exact h.older a ha c hm
  · change (forest.nodes.push (make ⟨forest.nodes.size, line⟩))[(make ⟨_, line⟩).id]? = _
    rw [hnew, Array.getElem?_push_size]
    rfl

theorem builds_register (h : forest.Sound) (key : Option String) {a : Artifact}
    (ha : forest.Holds a) : Builds forest (register key a) fun _ _ => True := by
  unfold register
  split
  · next k g hg =>
    refine ⟨⟨h.placed, h.closed, h.older, ?_, h.labelled⟩, fun _ hb => hb, trivial⟩
    intro g' hg'
    obtain rfl | hg' := OrderedMap.mem_values_insert hg'
    · cases a <;> cases hg
      exact ha
    · exact h.table g' hg'
  · exact builds_pure h trivial

theorem builds_name (h : forest.Sound) (label : String) {a : Artifact} (ha : forest.Holds a) :
    Builds forest (name label a) fun _ _ => True := by
  refine ⟨⟨h.placed, h.closed, h.older, h.table, ?_⟩, fun _ hb => hb, trivial⟩
  intro label' b hb
  change (forest.named.insert label a).get? label' = some b at hb
  rw [OrderedMap.get?_insert] at hb
  split at hb
  · cases hb
    exact ha
  · exact h.labelled label' b hb

mutual

theorem builds_build (d : Draft) {forest : Forest} (h : forest.Sound) :
    Builds forest (build d) Holds := by
  cases d with
  | block line statements =>
    refine builds_bind (builds_buildList statements h) fun ss next hn _ hs => ?_
    exact builds_add hn line (fun _ => rfl) fun _ => hs
  | reference line name parameter =>
    exact builds_add h line (fun _ => rfl) fun _ => List.forall_mem_nil _
  | literal line value => exact builds_add h line (fun _ => rfl) fun _ => List.forall_mem_nil _
  | binary line operator left right =>
    refine builds_bind (builds_buildOption left h) fun l next hn _ hl => ?_
    refine builds_bind (builds_buildOption right hn) fun r next' hn' hk hr => ?_
    refine builds_add hn' line (fun _ => rfl) fun _ c hc => ?_
    exact (List.mem_append.mp hc).elim (fun hc => hk c (hl c hc)) (hr c)
  | ret line value =>
    refine builds_bind (builds_buildOption value h) fun v next hn _ hv => ?_
    exact builds_add hn line (fun _ => rfl) fun _ => hv
  | branch line condition thenBranch elseBranch =>
    refine builds_bind (builds_buildOption condition h) fun c next hn _ hc => ?_
    refine builds_bind (builds_buildOption thenBranch hn) fun t next' hn' hk ht => ?_
    refine builds_bind (builds_buildOption elseBranch hn') fun e next'' hn'' hk' he => ?_
    refine builds_add hn'' line (fun _ => rfl) fun _ a ha => ?_
    obtain ha | ha := List.mem_append.mp ha
    · obtain ha | ha := List.mem_append.mp ha
      · exact hk' a (hk a (hc a ha))
      · exact hk' a (ht a ha)
    · exact he a ha
  | call line name arguments target =>
    refine builds_bind (builds_buildList arguments h) fun as next hn _ has => ?_
    exact builds_add hn line (fun _ => rfl) fun _ => has
  | function line name qualified parameters body key =>
    refine builds_bind (builds_buildList parameters h) fun ps next hn _ hps => ?_
    refine builds_bind (builds_build body hn) fun b next' hn' hk hb => ?_
    refine builds_bind (P := Holds) (builds_add hn' line (fun _ => rfl) fun _ c hc => ?_)
      fun a next'' hn'' _ ha => ?_
    · obtain hc | hc := List.mem_append.mp hc
      · exact hk c (hps c hc)
      · exact List.mem_singleton.mp hc ▸ hb
    · refine builds_bind (builds_register hn'' key ha) fun _ next₃ hn₃ hk₃ _ => ?_
      exact builds_pure hn₃ (hk₃ a ha)
  | labelled label draft =>
    refine builds_bind (builds_build draft h) fun a next hn _ ha => ?_
    refine builds_bind (builds_name hn label ha) fun _ next' hn' hk _ => ?_
    exact builds_pure hn' (hk a ha)
  | «shared» label =>
    change Builds forest (do
      match (← get).named.get? label with
      | some a => return a
      | none => add none (.block · [])) Holds
    refine builds_bind (P := fun next f => next = f) ⟨h, fun _ hb => hb, rfl⟩
      fun f next hn _ hf => ?_
    subst hf
    split
    · next a ha => exact builds_pure hn (hn.labelled label a ha)
    · exact builds_add hn none (fun _ => rfl) fun _ => List.forall_mem_nil _
termination_by structural d

theorem builds_buildList (ds : List Draft) {forest : Forest} (h : forest.Sound) :
    Builds forest (buildList ds) fun next as => ∀ a ∈ as, next.Holds a := by
  cases ds with
  | nil => exact builds_pure h (List.forall_mem_nil _)
  | cons d ds =>
    refine builds_bind (builds_build d h) fun a next hn _ ha => ?_
    refine builds_bind (builds_buildList ds hn) fun as next' hn' hk has => ?_
    refine builds_pure hn' fun b hb => ?_
    obtain rfl | hb := List.mem_cons.mp hb
    · exact hk b ha
    · exact has b hb
termination_by structural ds

theorem builds_buildOption (d : Option Draft) {forest : Forest} (h : forest.Sound) :
    Builds forest (buildOption d) fun next a => ∀ b ∈ a.toList, next.Holds b := by
  cases d with
  | none => exact builds_pure h (List.forall_mem_nil _)
  | some d =>
    refine builds_bind (builds_build d h) fun a next hn _ ha => ?_
    exact builds_pure hn fun b hb => List.mem_singleton.mp hb ▸ ha
termination_by structural d

end

end Forest

namespace Session

theorem sound_start (drafts : List Draft) (durations : Durations) :
    (start drafts durations).forest.Sound ∧
      (start drafts durations).forest.Holds (start drafts durations).module := by
  have h := Forest.builds_bind (Forest.builds_buildList drafts Forest.sound_empty)
    (Q := Forest.Holds) (f := fun _ => do
      let functions := (← get).functions.values
      Forest.add none (.block · (functions.map Function.artifact))) fun _ next hn _ _ => ?_
  · exact ⟨h.sound, h.gives⟩
  · refine Forest.builds_bind (P := fun forest f => f = forest) ⟨hn, fun _ hb => hb, rfl⟩
      fun f next hn _ hf => ?_
    subst hf
    refine Forest.builds_add hn none (fun _ => rfl) fun _ c hc => ?_
    obtain ⟨g, hg, rfl⟩ := List.mem_map.mp hc
    exact hn.table g hg

end Session

namespace Draft

def calling (name : String) (arguments : List Draft) : Draft :=
  .call none (some name) arguments (some name)

def defining (name : String) (parameters statements : List Draft) : Draft :=
  .function none name name parameters (.block none statements) (some name)

end Draft

end CallTime

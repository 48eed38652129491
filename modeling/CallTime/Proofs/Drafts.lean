import Mathlib.Data.List.Flatten
import Mathlib.Data.List.Perm.Subperm
import CallTime.Proofs.Program

/-!
Programs from drafts.

Main statement: drafts of functions that refer to no node built before and hold no other function make
a program.
-/

namespace CallTime

namespace Draft

mutual

def isPlain : Draft → Bool
  | .block _ statements => isPlainList statements
  | .reference _ _ _ | .literal _ _ _ => true
  | .binary _ _ left right => isPlainOption left && isPlainOption right
  | .ret _ value => isPlainOption value
  | .branch _ condition thenBranch elseBranch =>
    isPlainOption condition && isPlainOption thenBranch && isPlainOption elseBranch
  | .call _ _ arguments _ => isPlainList arguments
  | .function _ _ _ _ _ _ => false
  | .labelled _ draft => isPlain draft
  | .shared _ => false
termination_by structural d => d

def isPlainList : List Draft → Bool
  | [] => true
  | d :: ds => isPlain d && isPlainList ds
termination_by structural ds => ds

def isPlainOption : Option Draft → Bool
  | none => true
  | some d => isPlain d
termination_by structural d => d

end

def isPlainFunction : Draft → Bool
  | .function _ _ _ parameters body _ => isPlainList parameters && isPlain body
  | _ => false

end Draft

theorem OrderedMap.values_insert_subperm {α β : Type} [DecidableEq α] (m : OrderedMap α β) (k : α)
    (v : β) : (m.insert k v).values.Subperm (m.values ++ [v]) := by
  obtain ⟨es⟩ := m
  induction es with
  | nil => exact .refl _
  | cons e es ih =>
    rw [insert, insertEntry]
    split
    · exact ⟨_, List.perm_append_singleton v _, List.sublist_cons_self e.2 _⟩
    · exact (List.subperm_cons e.2).mpr ih

namespace Forest

open Artifact

variable {F G H : Forest} {as bs : List Artifact}

theorem getElem?_adopt (parents : Array (Option NodeId)) (p : NodeId) (cs : List Artifact)
    (i : NodeId) : (adopt parents p cs)[i]? =
      if i ∈ cs.map Artifact.id then parents[i]?.map fun _ => some p else parents[i]? := by
  induction cs generalizing parents with
  | nil => rfl
  | cons c cs ih =>
    rw [adopt, List.foldl_cons]
    refine (ih _).trans ?_
    simp only [Array.getElem?_modify, List.map_cons, List.mem_cons]
    by_cases hc : c.id = i
    · subst hc
      cases parents[c.id]? <;> simp
    · simp [hc, Ne.symm hc]

theorem size_adopt (parents : Array (Option NodeId)) (p : NodeId) (cs : List Artifact) :
    (adopt parents p cs).size = parents.size := by
  induction cs generalizing parents with
  | nil => rfl
  | cons c cs ih => exact (ih _).trans Array.size_modify

/-- The forest `F` has grown to `G` by trees of new nodes, whose roots have no parent yet. -/
structure Fresh (F G : Forest) (as : List Artifact) : Prop where
  sized : G.parents.size = G.nodes.size
  le : F.nodes.size ≤ G.nodes.size
  kept : ∀ i < F.nodes.size, G.parent? i = F.parent? i
  fresh : ∀ b ∈ walkFrom as, F.nodes.size ≤ b.id ∧ b.id < G.nodes.size
  nodup : ((walkFrom as).map Artifact.id).Nodup
  parent : ∀ b ∈ walkFrom as, ∀ c ∈ b.children, G.parent? c.id = some b.id
  orphan : ∀ a ∈ as, G.parent? a.id = none

theorem fresh_nil (h : F.parents.size = F.nodes.size) : Fresh F F [] where
  sized := h
  le := Nat.le_refl _
  kept _ _ := rfl
  fresh b hb := by
    rw [walkFrom] at hb
    cases hb
  nodup := by
    rw [walkFrom]
    exact List.nodup_nil
  parent b hb := by
    rw [walkFrom] at hb
    cases hb
  orphan := List.forall_mem_nil _

theorem Fresh.append (h : Fresh F G as) (h' : Fresh G H bs) : Fresh F H (as ++ bs) where
  sized := h'.sized
  le := Nat.le_trans h.le h'.le
  kept i hi := (h'.kept i (Nat.lt_of_lt_of_le hi h.le)).trans (h.kept i hi)
  fresh b hb := by
    rw [walkFrom_append, List.mem_append] at hb
    obtain hb | hb := hb
    · exact ⟨(h.fresh b hb).1, Nat.lt_of_lt_of_le (h.fresh b hb).2 h'.le⟩
    · exact ⟨Nat.le_trans h.le (h'.fresh b hb).1, (h'.fresh b hb).2⟩
  nodup := by
    rw [walkFrom_append, List.map_append, List.nodup_append]
    refine ⟨h.nodup, h'.nodup, ?_⟩
    intro i hi j hj he
    obtain ⟨b, hb, rfl⟩ := List.mem_map.mp hi
    obtain ⟨c, hc, rfl⟩ := List.mem_map.mp hj
    exact absurd (he ▸ (h.fresh b hb).2) (Nat.not_lt.mpr (h'.fresh c hc).1)
  parent b hb c hc := by
    rw [walkFrom_append, List.mem_append] at hb
    obtain hb | hb := hb
    · rw [h'.kept c.id (h.fresh c (mem_walkFrom_children hb hc)).2]
      exact h.parent b hb c hc
    · exact h'.parent b hb c hc
  orphan a ha := by
    obtain ha | ha := List.mem_append.mp ha
    · rw [h'.kept a.id (h.fresh a (mem_walkFrom_of_mem ha)).2]
      exact h.orphan a ha
    · exact h'.orphan a ha

theorem parent?_add (line : Option Nat) {make : Info → Artifact} (hid : ∀ info, (make info).info = info)
    (hc : ∀ info, (make info).children = as) (i : NodeId) :
    ((Forest.add line make).run G).2.parent? i = (if i ∈ as.map Artifact.id then
      (G.parents.push none)[i]?.map fun _ => some G.nodes.size else (G.parents.push none)[i]?).join := by
  have hnew : (make ⟨G.nodes.size, line⟩).id = G.nodes.size := by rw [Artifact.id, hid]
  change ((adopt (G.parents.push none) (make ⟨_, line⟩).id (make ⟨_, line⟩).children)[i]?).join = _
  rw [hnew, hc, getElem?_adopt]

theorem parent?_add_of_notMem (hG : G.parents.size = G.nodes.size) (line : Option Nat)
    {make : Info → Artifact} (hid : ∀ info, (make info).info = info)
    (hc : ∀ info, (make info).children = as) {i : NodeId} (hi : i < G.nodes.size)
    (hn : i ∉ as.map Artifact.id) : ((Forest.add line make).run G).2.parent? i = G.parent? i := by
  rw [parent?_add line hid hc, if_neg hn, Array.getElem?_push, hG, if_neg (Nat.ne_of_lt hi)]
  rfl

theorem Fresh.add (h : Fresh F G as) (line : Option Nat) (make : Info → Artifact)
    (hid : ∀ info, (make info).info = info) (hc : ∀ info, (make info).children = as) :
    Fresh F ((Forest.add line make).run G).2 [((Forest.add line make).run G).1] := by
  have hnew : ((Forest.add line make).run G).1.id = G.nodes.size := congrArg Info.id (hid _)
  have hwalk : walkFrom [((Forest.add line make).run G).1] =
      ((Forest.add line make).run G).1 :: walkFrom as := by
    rw [walkFrom, List.append_nil]
    exact congrArg (_ :: walkFrom ·) (hc _)
  have hsize : ((Forest.add line make).run G).2.nodes.size = G.nodes.size + 1 := Array.size_push _
  have hroot : ∀ a ∈ as, a.id < G.nodes.size := fun a ha => (h.fresh a (mem_walkFrom_of_mem ha)).2
  have hadopted : ∀ c ∈ as, ((Forest.add line make).run G).2.parent? c.id = some G.nodes.size := by
    intro c hcs
    have hlt : c.id < (G.parents.push none).size := by
      rw [Array.size_push, h.sized]
      exact Nat.lt_succ_of_lt (hroot c hcs)
    rw [parent?_add line hid hc, if_pos (List.mem_map_of_mem hcs), Array.getElem?_eq_getElem hlt]
    rfl
  have hother : ∀ i < G.nodes.size, i ∉ as.map Artifact.id →
      ((Forest.add line make).run G).2.parent? i = G.parent? i :=
    fun _ => parent?_add_of_notMem h.sized line hid hc
  refine ⟨?_, ?_, ?_, ?_, ?_, ?_, ?_⟩
  · rw [hsize]
    exact (size_adopt _ _ _).trans ((Array.size_push _).trans (congrArg (· + 1) h.sized))
  · rw [hsize]
    exact Nat.le_succ_of_le h.le
  · intro i hi
    refine (hother i (Nat.lt_of_lt_of_le hi h.le) fun hm => ?_).trans (h.kept i hi)
    obtain ⟨a, ha, rfl⟩ := List.mem_map.mp hm
    exact absurd hi (Nat.not_lt.mpr (h.fresh a (mem_walkFrom_of_mem ha)).1)
  · intro b hb
    rw [hwalk, List.mem_cons] at hb
    rw [hsize]
    obtain rfl | hb := hb
    · exact ⟨hnew ▸ h.le, hnew ▸ Nat.lt_succ_self _⟩
    · exact ⟨(h.fresh b hb).1, Nat.lt_succ_of_lt (h.fresh b hb).2⟩
  · rw [hwalk, List.map_cons, List.nodup_cons, hnew]
    refine ⟨fun hm => ?_, h.nodup⟩
    obtain ⟨b, hb, he⟩ := List.mem_map.mp hm
    exact Nat.ne_of_lt (h.fresh b hb).2 he
  · intro b hb c hcb
    rw [hwalk, List.mem_cons] at hb
    obtain rfl | hb := hb
    · rw [hnew]
      exact hadopted c (hc _ ▸ hcb)
    · -- A child below the trees has a parent, so it is no root of them.
      have hlt := (h.fresh c (mem_walkFrom_children hb hcb)).2
      have hpar := h.parent b hb c hcb
      refine (hother c.id hlt fun hm => ?_).trans hpar
      obtain ⟨a, ha, he⟩ := List.mem_map.mp hm
      rw [← he, h.orphan a ha] at hpar
      cases hpar
  · intro a ha
    obtain rfl := List.mem_singleton.mp ha
    rw [hnew, parent?_add line hid hc, if_neg, Array.getElem?_push, if_pos h.sized.symm]
    · rfl
    · intro hm
      obtain ⟨b, hb, he⟩ := List.mem_map.mp hm
      exact Nat.ne_of_lt (hroot b hb) he

theorem Fresh.subperm (h : Fresh F G as) (hs : bs.Subperm as) : Fresh F G bs := by
  have hmem : ∀ b ∈ walkFrom bs, b ∈ walkFrom as := by
    intro b hb
    rw [walkFrom_eq_flatMap, List.mem_flatMap] at hb ⊢
    obtain ⟨a, ha, hba⟩ := hb
    exact ⟨a, hs.subset ha, hba⟩
  refine ⟨h.sized, h.le, h.kept, fun b hb => h.fresh b (hmem b hb), ?_,
    fun b hb => h.parent b (hmem b hb), fun a ha => h.orphan a (hs.subset ha)⟩
  obtain ⟨cs, hperm, hsub⟩ := hs
  have hn := h.nodup
  rw [walkFrom_eq_flatMap] at hn ⊢
  exact ((hperm.flatMap_right walk).map _).nodup_iff.mp (hn.sublist ((hsub.flatMap walk).map _))

structure Grows (F G : Forest) (as : List Artifact) : Prop extends Fresh F G as where
  functions : G.functions = F.functions

theorem Grows.append (h : Grows F G as) (h' : Grows G H bs) : Grows F H (as ++ bs) :=
  ⟨h.toFresh.append h'.toFresh, h'.functions.trans h.functions⟩

theorem Grows.add (h : Grows F G as) (line : Option Nat) (make : Info → Artifact)
    (hid : ∀ info, (make info).info = info) (hc : ∀ info, (make info).children = as) :
    Grows F ((Forest.add line make).run G).2 [((Forest.add line make).run G).1] :=
  ⟨h.toFresh.add line make hid hc, h.functions⟩

mutual

theorem grows_build (d : Draft) (hd : d.isPlain = true) {F : Forest}
    (hF : F.parents.size = F.nodes.size) :
    Grows F ((build d).run F).2 [((build d).run F).1] := by
  cases d with
  | block line statements =>
    exact (grows_buildList statements hd hF).add line (.block · _) (fun _ => rfl) fun _ => rfl
  | reference line name parameter =>
    exact Grows.add ⟨fresh_nil hF, rfl⟩ line (.reference · name parameter) (fun _ => rfl) fun _ => rfl
  | literal line value place =>
    exact Grows.add ⟨fresh_nil hF, rfl⟩ line (.literal · value place) (fun _ => rfl) fun _ => rfl
  | binary line operator left right =>
    obtain ⟨hl, hr⟩ := Bool.and_eq_true_iff.mp hd
    have h := grows_buildOption left hl hF
    exact (h.append (grows_buildOption right hr h.sized)).add line (.binary · operator _ _)
      (fun _ => rfl) fun _ => rfl
  | ret line value =>
    exact (grows_buildOption value hd hF).add line (.ret · _) (fun _ => rfl) fun _ => rfl
  | branch line condition thenBranch elseBranch =>
    obtain ⟨hct, he⟩ := Bool.and_eq_true_iff.mp hd
    obtain ⟨hc, ht⟩ := Bool.and_eq_true_iff.mp hct
    have h := grows_buildOption condition hc hF
    have h' := h.append (grows_buildOption thenBranch ht h.sized)
    exact (h'.append (grows_buildOption elseBranch he h'.sized)).add line (.branch · _ _ _)
      (fun _ => rfl) fun _ => rfl
  | call line name arguments target =>
    exact (grows_buildList arguments hd hF).add line (.call · name _ target) (fun _ => rfl)
      fun _ => rfl
  | function line name qualified parameters body key => cases hd
  | labelled label draft =>
    have h := grows_build draft hd hF
    exact ⟨⟨h.sized, h.le, h.kept, h.fresh, h.nodup, h.parent, h.orphan⟩, h.functions⟩
  | «shared» label => cases hd
termination_by structural d

theorem grows_buildList (ds : List Draft) (hd : Draft.isPlainList ds = true) {F : Forest}
    (hF : F.parents.size = F.nodes.size) :
    Grows F ((buildList ds).run F).2 ((buildList ds).run F).1 := by
  cases ds with
  | nil => exact ⟨fresh_nil hF, rfl⟩
  | cons d ds =>
    obtain ⟨hd, hds⟩ := Bool.and_eq_true_iff.mp hd
    have h := grows_build d hd hF
    exact h.append (grows_buildList ds hds h.sized)
termination_by structural ds

theorem grows_buildOption (d : Option Draft) (hd : Draft.isPlainOption d = true) {F : Forest}
    (hF : F.parents.size = F.nodes.size) :
    Grows F ((buildOption d).run F).2 ((buildOption d).run F).1.toList := by
  cases d with
  | none => exact ⟨fresh_nil hF, rfl⟩
  | some d => exact grows_build d hd hF
termination_by structural d

end

def Tabled (F : Forest) : Prop := Fresh {} F (F.functions.values.map Function.artifact)

theorem tabled_empty : Tabled {} := fresh_nil rfl

theorem Tabled.register (hF : F.Tabled) {g : Function} (h : Grows F G [g.artifact])
    (key : Option String) : ((register key g.artifact).run G).2.Tabled := by
  have hall := hF.append h.toFresh
  rw [← h.functions] at hall
  cases key with
  | none => exact hall.subperm (List.sublist_append_left _ _).subperm
  | some k =>
    have hs := (G.functions.values_insert_subperm k g).map fun _ _ => Function.artifact_injective
    rw [List.map_append] at hs
    have hk := hall.subperm hs
    exact ⟨hk.sized, hk.le, hk.kept, hk.fresh, hk.nodup, hk.parent, hk.orphan⟩

theorem tabled_build (d : Draft) (hd : d.isPlainFunction = true) (hF : F.Tabled) :
    ((build d).run F).2.Tabled := by
  cases d with
  | function line name qualified parameters body key =>
    obtain ⟨hps, hb⟩ := Bool.and_eq_true_iff.mp hd
    have hparameters := grows_buildList parameters hps hF.sized
    have h := (hparameters.append (grows_build body hb hparameters.sized)).add line
      (.function · name qualified _ _) (fun _ => rfl) fun _ => rfl
    exact hF.register (g := ⟨_, name, qualified, _, _⟩) h key
  | _ => cases hd

theorem tabled_buildList (ds : List Draft) (hds : ds.all Draft.isPlainFunction = true)
    (hF : F.Tabled) : ((buildList ds).run F).2.Tabled := by
  induction ds generalizing F with
  | nil => exact hF
  | cons d ds ih =>
    obtain ⟨hd, hds⟩ := Bool.and_eq_true_iff.mp hds
    exact ih hds (tabled_build d hd hF)

end Forest

namespace Session

/-- The trees of the functions share no node, so every node has one parent. -/
structure Unshared (s : Session) : Prop where
  nodup : (s.module.walk.map Artifact.id).Nodup
  parent : ∀ a ∈ s.module.walk, ∀ c ∈ a.children, s.forest.parent? c.id = some a.id

theorem fresh_start (drafts : List Draft) (durations : Durations)
    (h : drafts.all Draft.isPlainFunction = true) :
    Forest.Fresh {} (start drafts durations).forest [(start drafts durations).module] :=
  (Forest.tabled_buildList drafts h Forest.tabled_empty).add none (.block · _) (fun _ => rfl)
    fun _ => rfl

theorem unshared_start (drafts : List Draft) (durations : Durations)
    (h : drafts.all Draft.isPlainFunction = true) : (start drafts durations).Unshared :=
  ⟨(fresh_start drafts durations h).nodup, (fresh_start drafts durations h).parent⟩

end Session

def Program.ofDrafts (drafts : List Draft) (h : drafts.all Draft.isPlainFunction = true) : Program :=
  let s := Session.start drafts {}
  { forest := s.forest
    info := s.module.info
    functions := s.functions
    sound := (Session.sound_start drafts {}).1
    held := (Session.sound_start drafts {}).2
    unshared := (Session.unshared_start drafts {} h).nodup
    parent := (Session.unshared_start drafts {} h).parent
    table := fun _ hg => hg }

end CallTime

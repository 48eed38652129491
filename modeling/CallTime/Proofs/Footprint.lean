import CallTime.Proofs.CallGraph
import CallTime.Proofs.Run

/-!
Where an analysis writes.

Main statement: the analysis of a function writes only on nodes below it and on those of functions it
leads to, and it writes arguments only on the latter.
-/

namespace CallTime

namespace Forest

open Relation Artifact

def CalledFrom (forest : Forest) (as : List Artifact) (g : Function) : Prop :=
  ∃ call ∈ walkFrom as, ∃ h, forest.target? call = some h ∧ ReflTransGen forest.Calls h g

def Touches (forest : Forest) (as : List Artifact) (i : NodeId) (k : Key) : Prop :=
  (k ≠ .callArgs ∧ ∃ a ∈ walkFrom as, a.id = i) ∨
    ∃ g, forest.CalledFrom as g ∧ ∃ a ∈ g.artifact.walk, a.id = i

variable {forest : Forest} {as bs : List Artifact} {f g : Function} {i : NodeId} {k : Key}

theorem calledFrom_function : forest.CalledFrom [f.artifact] g ↔ TransGen forest.Calls f g := by
  rw [TransGen.head'_iff]
  constructor
  · rintro ⟨call, hc, h, ht, hl⟩
    exact ⟨h, ⟨call, hc, ht⟩, hl⟩
  · rintro ⟨h, ⟨call, hc, ht⟩, hl⟩
    exact ⟨call, hc, h, ht, hl⟩

theorem CalledFrom.mono (h : forest.CalledFrom as g) (hs : ∀ a ∈ walkFrom as, a ∈ walkFrom bs) :
    forest.CalledFrom bs g := by
  obtain ⟨call, hc, h⟩ := h
  exact ⟨call, hs call hc, h⟩

theorem Touches.mono (h : forest.Touches as i k) (hs : ∀ a ∈ walkFrom as, a ∈ walkFrom bs) :
    forest.Touches bs i k := by
  obtain ⟨hk, a, ha, hi⟩ | ⟨g, hg, ha⟩ := h
  · exact .inl ⟨hk, a, hs a ha, hi⟩
  · exact .inr ⟨g, hg.mono hs, ha⟩

theorem Touches.call (h : forest.Touches [g.artifact] i k) {call : Artifact}
    (hc : call ∈ walkFrom as) (hg : forest.target? call = some g) : forest.Touches as i k := by
  obtain ⟨-, a, ha, hi⟩ | ⟨g', hg', ha⟩ := h
  · exact .inr ⟨g, ⟨call, hc, g, hg, .refl⟩, a, ha, hi⟩
  · exact .inr ⟨g', ⟨call, hc, g, hg, (calledFrom_function.mp hg').to_reflTransGen⟩, ha⟩

theorem touches_of_target? {call : Artifact} (hc : call ∈ walkFrom as)
    (hg : forest.target? call = some g) : forest.Touches as g.id k :=
  .inr ⟨g, ⟨call, hc, g, hg, .refl⟩, g.artifact, g.artifact.mem_walk_self, rfl⟩

end Forest

namespace Analysis

variable {setup : Setup}

theorem Spares.mono {T T' : NodeId → Key → Prop} {s t : State} (h : Spares T s t)
    (hT : ∀ i k, T i k → T' i k) : Spares T' s t :=
  fun i k hn => h i k fun ht => hn (hT i k ht)

theorem allows_touches {as : List Artifact} {a : Artifact} (ha : a ∈ Artifact.walkFrom as) :
    Allows (Spares (setup.forest.Touches as)) setup a := by
  have hown {k : Key} (hk : k ≠ .callArgs) := tolerates_spares
    (show setup.forest.Touches as a.id k from .inl ⟨hk, a, ha, rfl⟩)
  exact .of_tolerates frame_spares (hown (by decide)) (hown (by decide)) (hown (by decide))
    (fun _ hg => tolerates_spares (Forest.touches_of_target? ha hg))
    fun _ hg => tolerates_spares (Forest.touches_of_target? ha hg)

theorem spares_visitFrom (setup : Setup) {enter : Function → Run Unit}
    (he : ∀ g, Run.Respects (Spares (setup.forest.Touches [g.artifact])) (enter g)) (root : NodeId)
    (pending : List Artifact) :
    Run.Respects (Spares (setup.forest.Touches pending)) (visitFrom setup enter root pending) := by
  refine respects_visitFrom frame_spares root pending (fun a ha => allows_touches ha)
    fun a ha g hg s => (he g s).mono fun i k ht => ?_
  obtain rfl | ⟨-, hg⟩ := hg
  · exact ht.mono fun b hb => Artifact.mem_walkFrom_of_mem_walk ha hb
  · exact ht.call ha hg

theorem spares_analyzeFunction (setup : Setup) (depth : Nat) (f : Function) :
    Run.Respects (Spares (setup.forest.Touches [f.artifact])) (analyzeFunction setup depth f) := by
  have hown : ∀ k, k ≠ .callArgs → Run.Tolerates (Spares (setup.forest.Touches [f.artifact])) f.id k :=
    fun k hk => tolerates_spares (.inl ⟨hk, f.artifact, f.artifact.mem_walk_self, rfl⟩)
  induction depth generalizing f with
  | zero =>
    refine Run.respects_bind frame_spares (Run.respects_record frame_spares _) fun _ => ?_
    exact Run.respects_bind frame_spares (Run.respects_pathsOf frame_spares _ (hown _ (by decide)))
      fun _ => Run.respects_pure frame_spares _
  | succ depth ih =>
    refine Run.respects_bind frame_spares (respects_begin frame_spares setup (hown _ (by decide))
      (hown _ (by decide))) fun _ => ?_
    refine Run.respects_ite (Run.respects_within frame_spares f ?_) (Run.respects_pure frame_spares _)
    refine Run.respects_bind frame_spares (spares_visitFrom setup (fun g => ih g ?_) f.id [f.artifact])
      fun _ => ?_
    · exact fun k hk => tolerates_spares (.inl ⟨hk, g.artifact, g.artifact.mem_walk_self, rfl⟩)
    · exact Run.respects_forM frame_spares fun p _ =>
        respects_visitPaths frame_spares (hown _ (by decide)) p

end Analysis

end CallTime

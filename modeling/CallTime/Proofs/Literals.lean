import CallTime.Proofs.Statements
import CallTime.Proofs.WellFormed

/-!
The literals of a module.

Main statement: every literal in a module that was read from a source is an ordinary value, so that no
condition fails to be evaluated.
-/

namespace CallTime

open Value (Ordinary)

theorem Source.Spelled.ordinary {source : List Char} {statements : List Stmt}
    (h : readModule? source = some statements) {v : Value}
    (hv : Spelled (Signature.collect statements) v) : v.Ordinary := by
  cases hv with
  | constant hm => exact plain_of_mentions h hm _ _ _ .refl
  | @negated line w _ spelling hm hw =>
    cases w <;> cases hw
    all_goals exact trivial

namespace Forest

variable {signatures : OrderedMap String Source.Signature} {parameters : List String}
  {Q : Value → Prop} {F : Forest}

/-- Every literal in the forest has `Q`. -/
def Spells (Q : Value → Prop) (F : Forest) : Prop := ∀ info v place, .literal info v place ∈ F.nodes → Q v

theorem Spells.add (h : F.Spells Q) (line : Option Nat) (make : Info → Artifact)
    (hm : ∀ i info v place, make i = .literal info v place → Q v) : ((add line make).run F).2.Spells Q := by
  intro info v place hv
  obtain hv | hv := Array.mem_push.mp hv
  · exact h info v place hv
  · exact hm _ info v place hv.symm

theorem spells_buildList {ds : List Draft}
    (h : ∀ d ∈ ds, ∀ F : Forest, F.Spells Q → ((build d).run F).2.Spells Q) (hF : F.Spells Q) :
    ((buildList ds).run F).2.Spells Q := by
  induction ds generalizing F with
  | nil => exact hF
  | cons d ds ih =>
    obtain ⟨hd, hds⟩ := List.forall_mem_cons.mp h
    exact ih hds (hd F hF)

theorem spells_buildOption {o : Option Draft}
    (h : ∀ d ∈ o, ∀ F : Forest, F.Spells Q → ((build d).run F).2.Spells Q) (hF : F.Spells Q) :
    ((buildOption o).run F).2.Spells Q := by
  cases o with
  | none => exact hF
  | some d => exact h d rfl F hF

theorem spells_build {d : Draft} (hd : d.Fits signatures parameters)
    (hF : F.Spells (Source.Spelled signatures)) :
    ((build d).run F).2.Spells (Source.Spelled signatures) := by
  induction hd generalizing F with
  | block line _ ih =>
    exact (spells_buildList (fun d hd F => ih d hd) hF).add line (.block · _) fun _ _ _ _ h => by cases h
  | unknown line name => exact hF.add line (.reference · name none) fun _ _ _ _ h => by cases h
  | parameter line _ => exact hF.add line (.reference · _ _) fun _ _ _ _ h => by cases h
  | literal line place hv =>
    refine hF.add line (.literal · _ place) fun _ _ _ _ h => ?_
    cases h
    exact hv
  | binary line operator _ _ ihl ihr =>
    have hl := spells_buildOption (fun d hd F => ihl d hd) hF
    exact (spells_buildOption (fun d hd F => ihr d hd) hl).add line (.binary · operator _ _)
      fun _ _ _ _ h => by cases h
  | ret line _ ih =>
    exact (spells_buildOption (fun d hd F => ih d hd) hF).add line (.ret · _) fun _ _ _ _ h => by cases h
  | branch line _ _ _ ihc iht ihe =>
    have hc := spells_buildOption (fun d hd F => ihc d hd) hF
    have ht := spells_buildOption (fun d hd F => iht d hd) hc
    exact (spells_buildOption (fun d hd F => ihe d hd) ht).add line (.branch · _ _ _)
      fun _ _ _ _ h => by cases h
  | call line name _ _ ih =>
    exact (spells_buildList (fun d hd F => ih d hd) hF).add line (.call · name _ _)
      fun _ _ _ _ h => by cases h

theorem spells_build_function {s : Source.Signature} {d : Draft} (h : Source.Defines signatures s d)
    (hF : F.Spells (Source.Spelled signatures)) :
    ((build d).run F).2.Spells (Source.Spelled signatures) := by
  obtain ⟨line, name, qualified, hbody⟩ := h
  have hparameters := spells_buildList
    (fun d hd F => spells_build (s.fits_drafts signatures d hd)) hF
  exact (spells_build hbody hparameters).add line (.function · name qualified _ _)
    fun _ _ _ _ h => by cases h

end Forest

namespace Session

theorem spells_start {signatures : OrderedMap String Source.Signature} {ss : List Source.Signature}
    {drafts : List Draft} (h : List.Forall₂ (Source.Defines signatures) ss drafts)
    (durations : Durations) : (start drafts durations).forest.Spells (Source.Spelled signatures) := by
  refine Forest.Spells.add ?_ none (.block · _) fun _ _ _ _ h => by cases h
  refine Forest.spells_buildList (fun d hd F => ?_) fun info v place hv => ?_
  · obtain ⟨s, -, hs⟩ := exists_of_forall₂ h hd
    exact Forest.spells_build_function hs
  · cases Array.not_mem_empty _ hv

/-- In a module that was read from a source no reference counts its parameter from the end, and every
literal is an ordinary value. -/
theorem upright_ofSource (module source : String) (durations : Durations) :
    Meets (Source.Refused source) (ofSource module source durations) fun s =>
      s.module.Upright Ordinary ∧ s.WellFormed ∧ s.durations = durations ∧ s.insights = {} := by
  refine meets_bind (Source.loads module source) fun drafts h => ?_
  obtain ⟨statements, hr, h⟩ := h
  have hwell := wellFormed_start h durations
  refine meets_pure ⟨hwell.upright fun info v place hv => ?_, hwell, rfl, rfl⟩
  have held : (start drafts durations).forest.Holds (.literal info v place) :=
    Artifact.forall_mem_walkFrom hwell.sound.closed
      (fun _ h => List.mem_singleton.mp h ▸ hwell.held) _ hv
  exact (spells_start h durations info v place (Array.mem_toList_iff.mp held.mem)).ordinary hr

end Session

end CallTime

import CallTime.Proofs.Constants
import CallTime.Proofs.Durations
import CallTime.Proofs.Order

/-!
What is known about a program while it is analysed.

The durations of a function are those for the arguments it was analysed with last, whatever other
functions have been analysed since. Main statements: each step of the analysis keeps it that way.
-/

namespace CallTime.Program

open Analysis Relation
open Artifact (under)

variable {P : Program} {durations : Durations} {f g : Function} {s t : State}

def setup (P : Program) (durations : Durations) : Setup := { forest := P.forest, durations }

def run (P : Program) (durations : Durations) (insights : Insights) : Outcome :=
  analyze (P.setup durations) insights P.module

theorem Plain.owner (hP : P.Plain) (hf : f ∈ P.functions) (hg : g ∈ P.functions) {a b : Artifact}
    (ha : a ∈ f.artifact.walk) (hb : b ∈ g.artifact.walk) (h : a.id = b.id) : a = b ∧ f = g := by
  obtain rfl := (holds (mem_module hf ha)).eq (holds (mem_module hg hb)) h
  refine ⟨rfl, ?_⟩
  rw [walk_function, List.mem_cons] at ha hb
  obtain rfl | ha := ha
  · obtain hb | hb := hb
    · exact Function.artifact_injective hb
    · cases hP.flat g hg _ hb
  · obtain rfl | hb := hb
    · cases hP.flat f hf _ ha
    · have hf' := enclosing?_of_mem_body (hP.flat f hf) hf ha
      rw [enclosing?_of_mem_body (hP.flat g hg) hg hb] at hf'
      exact (Option.some.inj hf').symm

theorem mem_walk_of_mem_body {a : Artifact} (ha : a ∈ body f) : a ∈ f.artifact.walk :=
  walk_function f ▸ List.mem_cons_of_mem _ ha

theorem mem_of_leads (h : TransGen P.forest.Calls f g) : g ∈ P.functions := by
  obtain ⟨_, -, hg⟩ := TransGen.tail'_iff.mp h
  exact mem_of_calls hg

/-- The analysis of a function that `f` leads to does not touch the nodes of `f`. -/
theorem Plain.not_touches (hP : P.Plain) (hf : f ∈ P.functions) (hg : TransGen P.forest.Calls f g)
    {a : Artifact} (ha : a ∈ f.artifact.walk) (k : Key) : ¬P.forest.Touches [g.artifact] a.id k := by
  have hno : ∀ h, TransGen P.forest.Calls f h → ∀ b ∈ h.artifact.walk, b.id ≠ a.id := by
    intro h hl b hb he
    obtain ⟨-, rfl⟩ := hP.owner (mem_of_leads hl) hf hb ha he
    exact hP.acyclic h hf hl
  rintro (⟨-, b, hb, he⟩ | ⟨h, hh, b, hb, he⟩)
  · exact hno g hg b hb he
  · exact hno h (hg.trans (Forest.calledFrom_function.mp hh)) b hb he

theorem Plain.not_touches_callArgs (hP : P.Plain) (hf : f ∈ P.functions) {as : List Artifact}
    (h : ¬P.forest.CalledFrom as f) : ¬P.forest.Touches as f.id .callArgs := by
  rintro (⟨hk, -⟩ | ⟨g, hg, a, ha, he⟩)
  · exact hk rfl
  · obtain ⟨_, -, k, hk, hl⟩ := id hg
    have hmem : g ∈ P.functions := by
      obtain rfl | ⟨_, -, hcall⟩ := ReflTransGen.cases_tail hl
      · exact mem_of_target? hk
      · exact mem_of_calls hcall
    obtain ⟨-, rfl⟩ := hP.owner hmem hf ha f.artifact.mem_walk_self he
    exact h hg

def Costed (P : Program) (durations : Durations) (ρ : Signature) (insights : Insights)
    (call : Artifact) : Prop :=
  ∃ c, P.cost durations ρ call = .ok c ∧ Shows insights call c

/-- The durations of a function are those for its present arguments. -/
structure Settled (P : Program) (durations : Durations) (insights : Insights) (f : Function)
    (σ : Signature) : Prop where
  current : (insights.effectiveArgs f).map (under []) = σ
  arises : P.Arises f σ
  calls : ∀ call ∈ body f, call.isCall → P.Costed durations σ insights call
  paths : ∃ ps, P.timedPaths (P.cost durations σ) f = .ok ps ∧ insights.paths? f = some ps

structure Tidy (P : Program) (insights : Insights) (f : Function) : Prop where
  bare : insights.duration? f.id = none
  unmarked : ∀ call ∈ body f, insights.recursive? call.id = none
  shown : ∀ call ∈ body f, ∃ c, Shows insights call c ∧ (P.forest.target? call = none → c = none)
  given : ∀ arguments, insights.callArgs? f = some arguments →
    P.Given arguments ∧ P.Arises f (arguments.map (under []))
  paths : ∀ ps, insights.paths? f = some ps →
    ∃ ds, ds.length = (P.paths f).length ∧ ps = (P.paths f).zipWith Path.timed ds
  noted : (insights.get? f.id .analyzedArgs).isSome → (insights.analyzedArgs? f).isSome

/-- All functions are tidy, and those that were analysed are settled, some apart. -/
structure Coherent (P : Program) (durations : Durations) (unsettled : List Function)
    (insights : Insights) : Prop where
  tidy : ∀ f ∈ P.functions, P.Tidy insights f
  settled : ∀ f ∈ P.functions, f ∉ unsettled → ∀ σ, insights.analyzedArgs? f = some σ →
    P.Settled durations insights f σ

theorem Settled.congr {s t : Insights} {σ : Signature} (h : P.Settled durations s f σ)
    (he : ∀ a ∈ f.artifact.walk, ∀ k, k ≠ .callArgs → t.get? a.id k = s.get? a.id k)
    (hc : (t.effectiveArgs f).map (under []) = (s.effectiveArgs f).map (under [])) :
    P.Settled durations t f σ where
  current := hc.trans h.current
  arises := h.arises
  calls call hb hc := by
    obtain ⟨c, hcost, hs⟩ := h.calls call hb hc
    have hw := mem_walk_of_mem_body hb
    exact ⟨c, hcost, hs.congr (he call hw _ (by decide)) (he call hw _ (by decide))⟩
  paths := by
    rw [Insights.paths?_congr (he _ f.artifact.mem_walk_self _ (by decide))]
    exact h.paths

section Congr

variable {s t : Insights}

theorem Tidy.given_congr (h : P.Tidy s f) (he : t.get? f.id .callArgs = s.get? f.id .callArgs) :
    ∀ arguments, t.callArgs? f = some arguments →
      P.Given arguments ∧ P.Arises f (arguments.map (under [])) := by
  rw [Insights.callArgs?_congr he]
  exact h.given

theorem Tidy.paths_congr (h : P.Tidy s f) (he : t.get? f.id .paths = s.get? f.id .paths) :
    ∀ ps, t.paths? f = some ps →
      ∃ ds, ds.length = (P.paths f).length ∧ ps = (P.paths f).zipWith Path.timed ds := by
  rw [Insights.paths?_congr he]
  exact h.paths

theorem Tidy.noted_congr (h : P.Tidy s f)
    (he : t.get? f.id .analyzedArgs = s.get? f.id .analyzedArgs) :
    (t.get? f.id .analyzedArgs).isSome → (t.analyzedArgs? f).isSome := by
  rw [Insights.analyzedArgs?_congr he, he]
  exact h.noted

theorem Tidy.congr (h : P.Tidy s f)
    (he : ∀ a ∈ f.artifact.walk, ∀ k, k ≠ .callArgs → k ≠ .paths → k ≠ .analyzedArgs →
      t.get? a.id k = s.get? a.id k)
    (given : ∀ arguments, t.callArgs? f = some arguments →
      P.Given arguments ∧ P.Arises f (arguments.map (under [])))
    (paths : ∀ ps, t.paths? f = some ps →
      ∃ ds, ds.length = (P.paths f).length ∧ ps = (P.paths f).zipWith Path.timed ds)
    (noted : (t.get? f.id .analyzedArgs).isSome → (t.analyzedArgs? f).isSome) : P.Tidy t f where
  bare := (Insights.duration?_congr
    (he _ f.artifact.mem_walk_self _ (by decide) (by decide) (by decide))).trans h.bare
  unmarked call hb := (Insights.recursive?_congr
    (he call (mem_walk_of_mem_body hb) _ (by decide) (by decide) (by decide))).trans (h.unmarked call hb)
  shown call hb := by
    obtain ⟨c, hs, hn⟩ := h.shown call hb
    have hw := mem_walk_of_mem_body hb
    exact ⟨c, hs.congr (he call hw _ (by decide) (by decide) (by decide))
      (he call hw _ (by decide) (by decide) (by decide)), hn⟩
  given := given
  paths := paths
  noted := noted

end Congr

theorem Coherent.update (hP : P.Plain) {X Y : List Function} (h : P.Coherent durations X s.insights)
    (hg : g ∈ P.functions) {T : NodeId → Key → Prop}
    (hT : ∀ i k, T i k → ∃ a ∈ g.artifact.walk, a.id = i) (hst : Spares T s t)
    (hXY : ∀ f, f ≠ g → f ∉ Y → f ∉ X) (tidy : P.Tidy t.insights g)
    (settled : g ∉ Y → ∀ σ, t.insights.analyzedArgs? g = some σ →
      P.Settled durations t.insights g σ) : P.Coherent durations Y t.insights := by
  have he : ∀ f ∈ P.functions, f ≠ g → ∀ a ∈ f.artifact.walk, ∀ k,
      t.insights.get? a.id k = s.insights.get? a.id k := by
    intro f hf hne a ha k
    refine hst a.id k fun ht => ?_
    obtain ⟨b, hb, hba⟩ := hT _ _ ht
    exact hne (hP.owner hf hg ha hb hba.symm).2
  constructor
  · intro f hf
    by_cases hne : f = g
    · exact hne ▸ tidy
    · have heq := he f hf hne
      have ht := h.tidy f hf
      have hself := heq _ f.artifact.mem_walk_self
      exact ht.congr (fun a ha k _ _ _ => heq a ha k) (ht.given_congr (hself _))
        (ht.paths_congr (hself _)) (ht.noted_congr (hself _))
  · intro f hf hY σ hσ
    by_cases hne : f = g
    · subst hne
      exact settled hY σ hσ
    · have heq := he f hf hne
      rw [Insights.analyzedArgs?_congr (heq _ f.artifact.mem_walk_self _)] at hσ
      refine (h.settled f hf (hXY f hne hY) σ hσ).congr (fun a ha k _ => heq a ha k) ?_
      rw [Insights.effectiveArgs_congr (heq _ f.artifact.mem_walk_self _)]

/-- A state of the analysis, with the functions under analysis and those that are not settled. -/
structure Steady (P : Program) (durations : Durations) (stack unsettled : List Function)
    (s : State) : Prop where
  stack : s.stack = stack
  clock : ∃ m, s.clock = .unbounded m
  coherent : P.Coherent durations unsettled s.insights

theorem Steady.events {stack X : List Function} (h : P.Steady durations stack X s)
    (es : Array Event) : P.Steady durations stack X { s with events := es } :=
  ⟨h.stack, h.clock, h.coherent⟩

section Function

variable {E : Fault → Prop} {stack X : List Function}

theorem Steady.pathsOf (hP : P.Plain) (h : P.Steady durations stack X s) (hf : f ∈ P.functions) :
    Run.Yields E (Run.pathsOf P.forest f) s fun ps t => P.Steady durations stack X t ∧
      t.insights.paths? f = some ps ∧ Spares (fun i k => i = f.id ∧ k = .paths) s t := by
  cases hp : s.insights.paths? f with
  | some ps =>
    exact Run.yields_of_ok (Run.pathsOf_of_some _ hp) ⟨h, hp, frame_spares.refl s⟩
  | none =>
    obtain ⟨m, hm⟩ := h.clock
    have hgives := gives_paths hf (hP.flat f hf)
    obtain ⟨k, es, ht⟩ := Run.pathsOf_of_none hp hm hgives
    have hst : Spares (fun i k => i = f.id ∧ k = .paths) s
        (s.put f.id .paths (.note (.paths (P.paths f)))) :=
      (tolerates_spares ⟨rfl, rfl⟩).put s _
    have hps := s.paths?_put f (P.paths f)
    have htidy := h.coherent.tidy f hf
    have hkey := fun k (hk : k ≠ Key.paths) => hst f.id k fun hT => hk hT.2
    refine Run.yields_of_ok ht ⟨⟨h.stack, ⟨k, rfl⟩, ?_⟩, hps, hst⟩
    refine h.coherent.update hP hf (fun i k hi => ⟨f.artifact, f.artifact.mem_walk_self, hi.1.symm⟩)
      hst (fun _ _ hX => hX) (htidy.congr (fun a _ k _ hk _ => hst _ k fun hT => hk hT.2)
        (htidy.given_congr (hkey _ (by decide))) ?_ (htidy.noted_congr (hkey _ (by decide)))) ?_
    · intro ps hps'
      rw [hps] at hps'
      cases hps'
      exact ⟨_, List.length_map _, (Path.zipWith_timed_none fun p hp =>
        (in_of_mem_paths hf (hP.flat f hf) p hp).bare).symm⟩
    · intro hX σ hσ
      rw [Insights.analyzedArgs?_congr (hst _ _ fun hT => absurd hT.2 (by decide))] at hσ
      obtain ⟨ps, -, hn⟩ := (h.coherent.settled f hf hX σ hσ).paths
      rw [hp] at hn
      cases hn

theorem Tidy.constant_or_parameter (hP : P.Plain) {insights : Insights} (h : P.Tidy insights f)
    (hf : f ∈ P.functions) : ∀ a ∈ insights.effectiveArgs f, a.Constant ∨ a.Parameter := by
  intro a ha
  rw [Insights.effectiveArgs] at ha
  cases hc : insights.callArgs? f with
  | none =>
    rw [hc] at ha
    exact .inr (hP.parameters f hf a ha)
  | some arguments =>
    rw [hc] at ha
    exact .inl ((h.given arguments hc).1 a ha).1

theorem effectiveArgs_eq_unknown (hP : P.Plain) (hf : f ∈ P.functions) {insights : Insights}
    (h : insights.callArgs? f = none) :
    (insights.effectiveArgs f).map (under []) = f.parameters.map fun _ => none := by
  rw [Insights.effectiveArgs, h, Option.getD_none]
  exact List.map_congr_left fun a ha => under_parameter (hP.parameters f hf a ha)

theorem Tidy.arises (hP : P.Plain) {insights : Insights} (h : P.Tidy insights f)
    (hf : f ∈ P.functions) : P.Arises f ((insights.effectiveArgs f).map (under [])) := by
  cases hc : insights.callArgs? f with
  | none =>
    rw [effectiveArgs_eq_unknown hP hf hc]
    exact .root hf
  | some arguments =>
    rw [Insights.effectiveArgs, hc]
    exact (h.given arguments hc).2

theorem Steady.noteSignature (hP : P.Plain) (h : P.Steady durations stack (f :: X) s)
    (hf : f ∈ P.functions) :
    Run.Yields E (noteSignature f) s fun _ t => P.Steady durations stack (f :: X) t ∧
      t.insights.analyzedArgs? f = some ((s.insights.effectiveArgs f).map (under [])) ∧
      Spares (fun i k => i = f.id ∧ k = .analyzedArgs) s t := by
  have htidy := h.coherent.tidy f hf
  obtain ⟨es, hn⟩ := noteSignature_apply (Signature.of_eq (htidy.constant_or_parameter hP hf))
  have hst : Spares (fun i k => i = f.id ∧ k = .analyzedArgs) s (s.put f.id .analyzedArgs
      (.note (.signature ((s.insights.effectiveArgs f).map (under []))))) :=
    (tolerates_spares ⟨rfl, rfl⟩).put s _
  have hana := s.analyzedArgs?_put f ((s.insights.effectiveArgs f).map (under []))
  have hkey := fun k (hk : k ≠ Key.analyzedArgs) => hst f.id k fun hT => hk hT.2
  refine Run.yields_of_ok hn ⟨⟨h.stack, h.clock, ?_⟩, hana, hst⟩
  refine h.coherent.update hP hf (fun i k hi => ⟨f.artifact, f.artifact.mem_walk_self, hi.1.symm⟩)
    hst (fun _ _ hX => hX) (htidy.congr (fun a _ k _ _ hk => hst _ k fun hT => hk hT.2)
      (htidy.given_congr (hkey _ (by decide))) (htidy.paths_congr (hkey _ (by decide))) fun _ => ?_)
    fun hX => absurd List.mem_cons_self hX
  exact Option.isSome_of_mem hana

theorem Steady.begin (hP : P.Plain) (h : P.Steady durations stack (f :: X) s) (hf : f ∈ P.functions)
    (hi : stack.any (·.id = f.id) = false) :
    Run.Yields E (Analysis.begin (P.setup durations) f) s fun entered t =>
      entered = true ∧ P.Steady durations stack (f :: X) t ∧
      t.insights.effectiveArgs f = s.insights.effectiveArgs f ∧
      t.insights.analyzedArgs? f = some ((s.insights.effectiveArgs f).map (under [])) ∧
      (t.insights.paths? f).isSome := by
  have hi' : s.stack.any (·.id = f.id) = false := h.stack ▸ hi
  refine Run.yields_bind_of_ok (Run.record_apply _ s) ?_
  refine Run.yields_bind_of_ok (Run.isActive_apply f _) ?_
  refine Run.yields_bind ((h.events _).pathsOf hP hf) fun ps t hpaths => ?_
  obtain ⟨ht, hps, hst⟩ := hpaths
  rw [show List.any _ _ = false from hi']
  simp only [Bool.false_eq_true, if_false]
  refine Run.yields_bind_of_ok (Run.record_apply _ t) ?_
  refine Run.yields_bind ((ht.events _).noteSignature hP hf) fun _ u hnoted => ?_
  obtain ⟨hu, ha, htu⟩ := hnoted
  have hargs : t.insights.effectiveArgs f = s.insights.effectiveArgs f :=
    Insights.effectiveArgs_congr (hst _ _ fun hT => absurd hT.2 (by decide))
  refine Run.yields_pure ⟨rfl, hu, ?_, hargs ▸ ha, ?_⟩
  · exact (Insights.effectiveArgs_congr (htu _ _ fun hT => absurd hT.2 (by decide))).trans hargs
  · rw [Insights.paths?_congr (htu _ _ fun hT => absurd hT.2 (by decide))]
    exact Option.isSome_of_mem hps

end Function

/-- Every function on the stack leads to `g`. -/
def Above (P : Program) (stack : List Function) (g : Function) : Prop :=
  ∀ h ∈ stack, h ∈ P.functions ∧ TransGen P.forest.Calls h g

theorem Above.not_mem {stack : List Function} (h : P.Above stack g) (hP : P.Plain) : g ∉ stack :=
  fun hg => hP.acyclic g (h g hg).1 (h g hg).2

theorem Above.inactive {stack : List Function} (h : P.Above stack g) (hP : P.Plain)
    (hg : g ∈ P.functions) : stack.any (·.id = g.id) = false := by
  rw [List.any_eq_false]
  intro k hk hid
  have he := (holds_function (h k hk).1).eq (holds_function hg) (of_decide_eq_true hid)
  obtain rfl := Function.artifact_injective he
  exact h.not_mem hP hk

/-- `f` is under analysis, for arguments with the values `ρ`. -/
structure Visiting (P : Program) (durations : Durations) (stack : List Function) (f : Function)
    (ρ : Signature) (s : State) : Prop where
  steady : P.Steady durations (f :: stack) (f :: stack) s
  current : (s.insights.effectiveArgs f).map (under []) = ρ
  analyzed : s.insights.analyzedArgs? f = some ρ
  paths : (s.insights.paths? f).isSome

/-- The call is to be settled: what it calls was given its arguments. -/
structure Handed (P : Program) (g : Function) (σ : Signature) (insights : Insights) : Prop where
  arguments : ∃ arguments, insights.callArgs? g = some arguments
  current : (insights.effectiveArgs g).map (under []) = σ

theorem Handed.congr {σ : Signature} {s t : Insights} (h : P.Handed g σ s)
    (he : t.get? g.id .callArgs = s.get? g.id .callArgs) : P.Handed g σ t where
  arguments := (Insights.callArgs?_congr he).symm ▸ h.arguments
  current := (Insights.effectiveArgs_congr he).symm ▸ h.current

section Call

variable {E : Fault → Prop} {stack : List Function} {ρ : Signature} {call : Artifact}

theorem Visiting.arises (hP : P.Plain) (h : P.Visiting durations stack f ρ s) (hf : f ∈ P.functions) :
    P.Arises f ρ :=
  h.current ▸ (h.steady.coherent.tidy f hf).arises hP hf

theorem Visiting.propagate (hP : P.Plain) (h : P.Visiting durations stack f ρ s)
    (hf : f ∈ P.functions) (hc : call ∈ body f) (hg : P.forest.target? call = some g) :
    Run.Yields E (propagate P.forest call g) s fun _ t => t.stack = s.stack ∧ t.clock = s.clock ∧
      Spares (fun i k => i = g.id ∧ k = .callArgs) s t ∧ P.Tidy t.insights g ∧
      P.Handed g (ρ.substitute call) t.insights := by
  have hgm := mem_of_target? hg
  obtain ⟨arguments, hr, hgiven, hvalues⟩ := resolveArguments_eq hP hf
    (fun outer ho => ((h.steady.coherent.tidy f hf).given outer ho).1) hc (isCall_of_target? hg)
  rw [h.current] at hvalues
  obtain ⟨es, hp⟩ := propagate_of_ok hr g
  have hst : Spares (fun i k => i = g.id ∧ k = .callArgs) s
      (s.put g.id .callArgs (.note (.arguments arguments))) :=
    (tolerates_spares ⟨rfl, rfl⟩).put s _
  have hargs := s.callArgs?_put g arguments
  have htidy := h.steady.coherent.tidy g hgm
  have hkey := fun k (hk : k ≠ Key.callArgs) => hst g.id k fun hT => hk hT.2
  refine Run.yields_of_ok hp ⟨rfl, rfl, hst, ?_, ⟨arguments, hargs⟩, ?_⟩
  · refine htidy.congr (fun a _ k hk _ _ => hst _ k fun hT => hk hT.2) (fun as has => ?_)
      (htidy.paths_congr (hkey _ (by decide))) (htidy.noted_congr (hkey _ (by decide)))
    rw [hargs] at has
    cases has
    exact ⟨hgiven, hvalues ▸ .call (h.arises hP hf) hc hg⟩
  · rw [Insights.effectiveArgs, hargs]
    exact hvalues

theorem Above.descend (h : P.Above stack f) (hf : f ∈ P.functions) (hc : call ∈ body f)
    (hg : P.forest.target? call = some g) : P.Above (f :: stack) g := by
  have hfg : P.forest.Calls f g := calls_of_target? hc hg
  intro k hk
  obtain rfl | hk := List.mem_cons.mp hk
  · exact ⟨hf, .single hfg⟩
  · exact ⟨(h k hk).1, (h k hk).2.tail hfg⟩

/-- A called function that is not entered was analysed for these very arguments. -/
theorem Visiting.approach (hP : P.Plain) (h : P.Visiting durations stack f ρ s)
    (hf : f ∈ P.functions) (hs : P.Above stack f) (hc : call ∈ body f)
    (hg : P.forest.target? call = some g) :
    Run.Yields E (approach (P.setup durations) call g) s fun entered t =>
      Spares (fun i k => i = g.id ∧ k = .callArgs) s t ∧ P.Handed g (ρ.substitute call) t.insights ∧
      if entered then P.Steady durations (f :: stack) (g :: f :: stack) t
      else P.Steady durations (f :: stack) (f :: stack) t ∧
        t.insights.analyzedArgs? g = some (ρ.substitute call) := by
  have hgm := mem_of_target? hg
  have habove := hs.descend hf hc hg
  have hco := h.steady.coherent
  refine Run.yields_bind (h.propagate hP hf hc hg) fun _ t hpropagated => ?_
  obtain ⟨hstack, hclock, hst, htidy, hh⟩ := hpropagated
  have hnode : ∀ i k, i = g.id ∧ k = Key.callArgs → ∃ a ∈ g.artifact.walk, a.id = i :=
    fun i k hi => ⟨g.artifact, g.artifact.mem_walk_self, hi.1.symm⟩
  have hother : ∀ i k, k ≠ .callArgs → t.insights.get? i k = s.insights.get? i k :=
    fun i k hk => hst i k fun hT => hk hT.2
  have hmark : t.insights.recursive? call.id = none :=
    (Insights.recursive?_congr (hother _ _ (by decide))).trans ((hco.tidy f hf).unmarked call hc)
  have hidle : t.stack.any (·.id = g.id) = false :=
    hstack ▸ h.steady.stack ▸ habove.inactive hP hgm
  obtain ⟨es, hshould⟩ := shouldAnalyze_apply
    (show (P.setup durations).settings.analyzeResolved = true from rfl) hmark hidle
  have hof := Signature.of_eq (htidy.constant_or_parameter hP hgm)
  rw [hh.current] at hof
  obtain ⟨b, hb, hup⟩ := upToDate_of_signature hof
  rw [hb] at hshould
  refine Run.yields_bind_of_ok hshould ?_
  cases b with
  | false =>
    refine Run.yields_pure ⟨hst, hh, ⟨hstack.trans h.steady.stack, hclock ▸ h.steady.clock, ?_⟩⟩
    exact hco.update hP hgm hnode hst (fun _ _ hX hX' => hX (List.mem_cons_of_mem g hX')) htidy
      fun hX => absurd List.mem_cons_self hX
  | true =>
    obtain ⟨ps, τ, hps, hτ, hagree⟩ := hup rfl
    have hτ' : s.insights.analyzedArgs? g = some τ :=
      (Insights.analyzedArgs?_congr (hother _ _ (by decide))).symm.trans hτ
    have hset := hco.settled g hgm (habove.not_mem hP) τ hτ'
    obtain rfl := Signature.eq_of_agrees (hset.arises.simple hP) hagree
    refine Run.yields_bind_of_ok (Run.pathsOf_of_some _ hps) (Run.yields_pure
      ⟨hst, hh, ⟨hstack.trans h.steady.stack, hclock ▸ h.steady.clock, ?_⟩, hτ⟩)
    refine hco.update hP hgm hnode hst (fun _ _ hX => hX) htidy fun _ σ hσ => ?_
    rw [hτ] at hσ
    cases hσ
    exact hset.congr (fun a _ k hk => hother a.id k hk) (hh.current.trans hset.current.symm)

theorem estimate_eq (call : Artifact) (hP : P.Plain) {σ : Signature} (hg : g ∈ P.functions)
    (htidy : P.Tidy s.insights g) (hset : P.Settled durations s.insights g σ)
    (hh : P.Handed g σ s.insights) :
    ∃ es, estimate P.forest call g s =
      (P.mean (P.cost durations σ) g σ, { s with events := es }) := by
  obtain ⟨arguments, hargs⟩ := hh.arguments
  have hgiven := (htidy.given arguments hargs).1
  have heff : s.insights.effectiveArgs g = arguments := by
    rw [Insights.effectiveArgs, hargs, Option.getD_some]
  have hσ : arguments.map (under []) = σ := heff ▸ hh.current
  have hfull : fullyResolved arguments = σ.known := hσ ▸ fullyResolved_eq fun a ha => (hgiven a ha).1
  rw [estimate, Run.bind_of_ok (Run.insights_apply s), mean, heff, hfull]
  cases hk : σ.known with
  | false => exact ⟨_, rfl⟩
  | true =>
    obtain ⟨ps, htimed, hps⟩ := hset.paths
    obtain ⟨ds, -, rfl⟩ := htidy.paths ps hps
    have hcand := candidates_eq hP.byValue hgiven (hσ ▸ hk) hg ((P.paths g).zipWith Path.timed ds)
      fun q hq c hc => by
        obtain ⟨p, hp, d, rfl⟩ := Path.exists_timed_of_mem hq
        rw [Path.conditions_timed] at hc
        exact (in_of_mem_paths hg (hP.flat g hg) p hp).conditions c hc
    rw [hσ] at hcand
    refine ⟨s.events, ?_⟩
    simp only [if_true]
    rw [Run.bind_of_ok (Run.pathsOf_of_some _ hps), hcand, htimed]
    change _ = ((do Path.average (← Path.candidates _ _) : Except Fault (Option Int)), s)
    cases Path.candidates (σ.literals P.forest) ((P.paths g).zipWith Path.timed ds) <;> rfl

theorem Visiting.store (hP : P.Plain) (h : P.Visiting durations stack f ρ s) (hf : f ∈ P.functions)
    (hc : call ∈ body f) {c : Cost} (hw : Writes s t call c)
    (hn : P.forest.target? call = none → c = none) : P.Visiting durations stack f ρ t := by
  have hst := hw.spares
  have htidy := h.steady.coherent.tidy f hf
  have hkey : ∀ i k, k ≠ .functionDuration → k ≠ .durationSource →
      t.insights.get? i k = s.insights.get? i k :=
    fun i k hd hs => hst i k fun hT => hT.2.elim hd hs
  have hnode : ∀ i k, i ≠ call.id → t.insights.get? i k = s.insights.get? i k :=
    fun i k hi => hst i k fun hT => hi hT.1
  have hfid : f.id ≠ call.id := Nat.ne_of_gt (id_lt_of_mem_body hf hc)
  have htidy' : P.Tidy t.insights f := {
    bare := (Insights.duration?_congr (hnode _ _ hfid)).trans htidy.bare
    unmarked := fun other ho =>
      (Insights.recursive?_congr (hkey _ _ (by decide) (by decide))).trans (htidy.unmarked other ho)
    shown := fun other ho => by
      by_cases hid : other.id = call.id
      · obtain rfl := (holds_body hf ho).eq (holds_body hf hc) hid
        exact ⟨c, hw.shows, hn⟩
      · obtain ⟨c', hs', hn'⟩ := htidy.shown other ho
        exact ⟨c', hs'.congr (hnode _ _ hid) (hnode _ _ hid), hn'⟩
    given := htidy.given_congr (hnode _ _ hfid)
    paths := htidy.paths_congr (hnode _ _ hfid)
    noted := htidy.noted_congr (hnode _ _ hfid) }
  refine ⟨⟨hw.stack.trans h.steady.stack, hw.clock ▸ h.steady.clock, ?_⟩, ?_, ?_, ?_⟩
  · exact h.steady.coherent.update hP hf
      (fun i k hi => ⟨call, mem_walk_of_mem_body hc, hi.1.symm⟩) hst (fun _ _ hX => hX) htidy'
      fun hX => absurd List.mem_cons_self hX
  · rw [Insights.effectiveArgs_congr (hnode _ _ hfid)]
    exact h.current
  · rw [Insights.analyzedArgs?_congr (hnode _ _ hfid)]
    exact h.analyzed
  · rw [Insights.paths?_congr (hnode _ _ hfid)]
    exact h.paths

theorem Visiting.events (h : P.Visiting durations stack f ρ s) (es : Array Event) :
    P.Visiting durations stack f ρ { s with events := es } :=
  ⟨h.steady.events es, h.current, h.analyzed, h.paths⟩

theorem Visiting.settle (hP : P.Plain) (h : P.Visiting durations stack f ρ s) (hf : f ∈ P.functions)
    (hc : call ∈ body f) (hg : P.forest.target? call = some g)
    (hset : P.Settled durations s.insights g (ρ.substitute call))
    (hh : P.Handed g (ρ.substitute call) s.insights) :
    Run.Yields (P.Fails durations) (settle (P.setup durations) call g) s fun _ t =>
      P.Visiting durations stack f ρ t ∧ Spares (CostOf call) s t ∧
        P.Costed durations ρ t.insights call := by
  have htidy := h.steady.coherent.tidy g (mem_of_target? hg)
  have harises := h.arises hP hf
  have hcost := cost_eq hP durations ρ hg
  have hmeasured := measuredDuration_of_bare durations htidy.bare
  obtain ⟨_, hshown, -⟩ := (h.steady.coherent.tidy f hf).shown call hc
  obtain ⟨es, hest⟩ := estimate_eq call hP (mem_of_target? hg) htidy hset hh
  cases hmean : P.mean (P.cost durations (ρ.substitute call)) g (ρ.substitute call) with
  | error e =>
    rw [hmean] at hest
    exact Run.yields_of_error (Run.bind_of_error hest _)
      ⟨f, ρ, call, g, harises, hc, hg, .inl hmean⟩
  | ok mean =>
    rw [hmean] at hest hcost
    have done : ∀ {x : Run Unit} {t : State} {c : Cost}, P.cost durations ρ call = .ok c →
        x { s with events := es } = (.ok (), t) → Writes { s with events := es } t call c →
        Run.Yields (P.Fails durations) x { s with events := es } fun _ t =>
          P.Visiting durations stack f ρ t ∧ Spares (CostOf call) s t ∧
            P.Costed durations ρ t.insights call := by
      intro x t c hcost hx hw
      have hsome : P.forest.target? call ≠ none := by
        rw [hg]
        exact Option.some_ne_none g
      have hv := (h.events es).store hP hf hc hw fun hn => absurd hn hsome
      exact Run.yields_of_ok hx ⟨hv, hw.spares, c, hcost, hw.shows⟩
    refine Run.yields_bind_of_ok hest (Run.yields_bind_of_ok (Run.insights_apply _) ?_)
    cases hv : durations.measured? g with
    | some v =>
      cases hn : v.toInt with
      | error e =>
        simp only [hv, hn] at hmeasured
        exact Run.yields_of_error (Run.bind_of_error (congrArg (·, _) hmeasured) _)
          ⟨f, ρ, call, g, harises, hc, hg, .inr ⟨v, hv, hn⟩⟩
      | ok n =>
        simp only [hv, hn] at hmeasured hcost
        refine Run.yields_bind_of_ok (congrArg (·, _) hmeasured) ?_
        obtain ⟨t, hs, hw⟩ := storeDuration_writes (s := { s with events := es }) hshown n "measured"
        exact done hcost hs hw
    | none =>
      simp only [hv] at hmeasured hcost
      refine Run.yields_bind_of_ok (congrArg (·, _) hmeasured) ?_
      cases mean with
      | some n =>
        obtain ⟨t, hs, hw⟩ := storeDuration_writes (s := { s with events := es }) hshown n "paths"
        exact done hcost hs hw
      | none =>
        obtain ⟨t, hs, hw⟩ := dropDerived_writes (s := { s with events := es }) hshown
        exact done hcost hs hw

end Call

end CallTime.Program

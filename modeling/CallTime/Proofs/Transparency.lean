import Mathlib
import CallTime.Proofs.Service

/-!
Leaving out functions that are up to date.

An analysis does not enter a called function again whose paths all have durations for arguments with the
present signature. Main statement: in a discerning program without recursion this makes no difference to
what the functions that no call resolves to end up with, compared with an analysis that enters every
called function.
-/

namespace CallTime

open Analysis

namespace Program

open Relation
open Artifact (walkFrom)

variable {P : Program} {durations : Durations} {settings : Settings} {choose : Policy}
  {f g k o : Function} {a : Artifact} {s t : State} {limit : Option Int} {insights : Insights}
  {before : List Function}

/-- What completed analyses come to, whatever nodes of the module they start at and whatever ticks they
are given. -/
inductive Reached (P : Program) (durations : Durations) : Insights → Prop
  | start : Reached P durations {}
  | step {insights : Insights} (h : Reached P durations insights) (settings : Settings)
      (hon : settings.analyzeResolved = true) {a : Artifact} (ha : a ∈ P.module.walk)
      {paths : Option (List Path)}
      (hok : (analyze (P.configured durations settings) insights a).result = .ok paths) :
      Reached P durations (analyze (P.configured durations settings) insights a).insights

theorem Reached.run (h : P.Reached durations insights)
    (hok : (P.run durations insights).result = .ok none) :
    P.Reached durations (P.run durations insights).insights :=
  .step h {} rfl P.module.mem_walk_self hok

/-- Everything can be trusted, and there are charges for whatever a function was given. -/
structure Firm (P : Program) (durations : Durations) (insights : Insights) : Prop where
  trusted : P.Trusted durations [] insights
  charged : ∀ k, P.Has k → ∀ σ, insights.callArgs? k = some σ →
    ∃ c, P.Charges durations k (some σ) c

theorem Firm.advance {s t : Insights} (h : P.Firm durations s) (ht : P.Trusted durations [] t)
    (hadv : P.Advances durations s t) : P.Firm durations t := by
  refine ⟨ht, fun k hk σ hσ => ?_⟩
  obtain he | ⟨σ', c, hσ', hc⟩ := hadv.renewed k hk
  · exact h.charged k hk σ (he.symm.trans hσ)
  · cases hσ.symm.trans hσ'
    exact ⟨c, hc⟩

def entering (P : Program) (durations : Durations) (settings : Settings) (choose : Policy) :
    Function → Run Unit :=
  analyzeFunctionBy choose (P.configured durations settings) (functionCount P.forest)

theorem serves_entering (durations : Durations) (limit : Option Int) (settings : Settings)
    (hP : P.Acyclic) (hd : P.Discerning) (hon : Honest choose) (hf : P.Has f)
    {stale : List Function} (hfresh : ∀ k ∈ stale, ¬TransGen P.forest.Calls f k) :
    P.Serves durations limit stale [] (P.entering durations settings choose) f :=
  serves_analyzeFunctionBy hP hd hon _ hf (P.weight_le f) (List.forall_mem_nil _) hfresh

theorem spares_entering (P : Program) (durations : Durations) (settings : Settings)
    (hon : Honest choose) (f : Function) :
    Run.Respects (Spares (P.forest.Touches [f.artifact])) (P.entering durations settings choose f) :=
  spares_analyzeFunctionBy hon.quiet (P.configured durations settings) _ f

/-- The calls in a function that was served are fixed, where nothing reaches the function around them. -/
theorem Served.fixed (h : P.Served durations f s t) (hf : P.Has f) (hs : P.Regular s.insights)
    (ho : o.artifact ∈ f.artifact.walk) (hu : P.Untargeted o) (ha : o.Owns a) :
    P.Fixed durations t.insights a := by
  obtain ⟨c, hc, hshown, -⟩ := h.charges
  have hcharged := (charges_iff.mp hc).2
  rw [walk_function, List.mem_cons] at ho
  obtain ho | ho := ho
  · obtain rfl := Function.artifact_injective ho
    refine ⟨c a, ?_, hshown a ha.mem_walkFrom⟩
    have hca := hcharged a ha.mem_walkFrom
    rw [hf.standing_owned ha] at hca
    cases hσ : s.insights.callArgs? o with
    | none => rwa [hσ] at hca
    | some σ =>
      cases hs.given o hf σ hσ with
      | call hc' ha' hg' _ =>
        exact absurd hg' (hu _ (mem_module_of_mem_walk hc'.has (mem_body ha'.mem_walkFrom)))
  · have hab : a ∈ body f := body_subset ho ha.mem_walkFrom
    refine ⟨c a, ?_, hshown a hab⟩
    have hca := hcharged a hab
    rwa [hf.standing_nested ho ha.mem_walkFrom] at hca

/-- The functions that come before have handed arguments to all they lead to, and nothing else has
changed hands. -/
def Handing (P : Program) (start : Insights) (before : List Function) (insights : Insights) : Prop :=
  ∀ k ∈ P.functions, (insights.callArgs? k).isSome ↔
    (start.callArgs? k).isSome ∨ ∃ g ∈ before, TransGen P.forest.Calls g k

theorem leads_of_touches (hk : k ∈ P.functions) (h : P.forest.Touches [f.artifact] k.id .callArgs) :
    TransGen P.forest.Calls f k := by
  obtain ⟨hne, -⟩ | ⟨g, hg, b, hb, hid⟩ := h
  · exact absurd rfl hne
  · have hl := Forest.calledFrom_function.mp hg
    have hgm := mem_of_leads hl
    obtain rfl := eq_of_id_eq (mem_module hgm hb) (mem_module hk k.artifact.mem_walk_self) hid
    obtain rfl := top_unique hgm hk hb k.artifact.mem_walk_self
    exact hl

theorem Handing.step {start : Insights} (h : P.Handing start before s.insights)
    (hserved : P.Served durations f s t) (hst : Spares (P.forest.Touches [f.artifact]) s t) :
    P.Handing start (before ++ [f]) t.insights := by
  intro k hk
  have hmem : (∃ g ∈ before ++ [f], TransGen P.forest.Calls g k) ↔
      (∃ g ∈ before, TransGen P.forest.Calls g k) ∨ TransGen P.forest.Calls f k := by
    simp only [List.mem_append, List.mem_singleton, or_and_right, exists_or, exists_eq_left]
  rw [hmem, ← or_assoc, ← h k hk]
  constructor
  · intro hsome
    by_cases hl : TransGen P.forest.Calls f k
    · exact .inr hl
    · rw [Insights.callArgs?_congr (hst _ _ fun hT => hl (leads_of_touches hk hT))] at hsome
      exact .inl hsome
  · rintro (hsome | hl)
    · exact hserved.advances.isSome (has_of_mem hk) hsome
    · exact hserved.given k hl

/-- A function that nothing has reached when its turn comes, and for which there are no charges then. -/
def Stuck (P : Program) (durations : Durations) (start : Insights) (before : List Function)
    (f : Function) : Prop :=
  start.callArgs? f = none ∧ (∀ g ∈ before, ¬TransGen P.forest.Calls g f) ∧
    ¬∃ c, P.Charges durations f none c

def Blocked (P : Program) (durations : Durations) (start : Insights) : Prop :=
  ∃ before f after, P.functions = before ++ f :: after ∧ P.Stuck durations start before f

/-- There are charges for a function exactly if it is not stuck when its turn comes. -/
theorem Firm.charges_iff_not_stuck {start : Insights} (h : P.Firm durations insights)
    (hhand : P.Handing start before insights) (hf : f ∈ P.functions) :
    (∃ c, P.Charges durations f (insights.callArgs? f) c) ↔ ¬P.Stuck durations start before f := by
  have hgiven := hhand f hf
  cases hσ : insights.callArgs? f with
  | some σ =>
    refine ⟨fun _ hstuck => ?_, fun _ => h.charged f (has_of_mem hf) σ hσ⟩
    rw [hσ] at hgiven
    obtain hs | ⟨g, hg, hl⟩ := hgiven.mp rfl
    · rw [hstuck.1] at hs
      cases hs
    · exact hstuck.2.1 g hg hl
  | none =>
    rw [hσ] at hgiven
    have hnot := fun h => Bool.false_ne_true (hgiven.mpr h)
    refine ⟨fun hc hstuck => hstuck.2.2 hc, fun hn => by_contra fun hc => hn ⟨?_, ?_, hc⟩⟩
    · exact Option.not_isSome_iff_eq_none.mp fun h => hnot (.inl h)
    · exact fun g hg hl => hnot (.inr ⟨g, hg, hl⟩)

theorem before_eq {after before' after' : List Function} (h : P.functions = before ++ f :: after)
    (h' : P.functions = before' ++ f :: after') : before = before' :=
  List.append_cancel_right (h.symm.trans (h'.trans (by rw [after_eq h h'])))

theorem Firm.functions (settings : Settings) (hP : P.Acyclic) (hd : P.Discerning) (hon : Honest choose)
    {start : Insights} (rest : List Function) (hsplit : P.functions = before ++ rest)
    (h : P.Firm durations s.insights) (hc : s.clock.limit? = some limit) (hs : s.stack = [])
    (hhand : P.Handing start before s.insights) :
    Run.Ends (visitFromBy choose (P.configured durations settings) (P.entering durations settings choose)
        P.module.id (rest.map Function.artifact)) s
      (fun _ t => P.Stands durations limit [] t ∧ P.Advances durations s.insights t.insights ∧
        (∀ before f after, P.functions = before ++ f :: after → f ∈ rest →
          ¬P.Stuck durations start before f) ∧
        ∀ f ∈ rest, ∀ o a, o.artifact ∈ f.artifact.walk → P.Untargeted o → o.Owns a →
          P.Fixed durations t.insights a)
      (fun e _ => Spent limit e ∨ P.Blocked durations start) := by
  induction rest generalizing before s with
  | nil =>
    rw [List.map_nil, visitFromBy]
    exact Run.ends_pure ⟨⟨hc, h.trusted⟩, .refl _, fun _ _ _ _ hf => absurd hf List.not_mem_nil,
      List.forall_mem_nil _⟩
  | cons f rest ih =>
    have hf : f ∈ P.functions := hsplit ▸ List.mem_append_right _ List.mem_cons_self
    have hstuck := h.charges_iff_not_stuck hhand hf
    rw [List.map_cons, visitFromBy, nested?_module hf]
    have hserve := (serves_entering durations limit settings hP hd hon (has_of_mem hf)
      (List.forall_mem_nil _) s hs ⟨hc, h.trusted⟩).and_respects
      (spares_entering P durations settings hon f)
    refine Run.ends_bind (hserve.mono (fun _ _ h => h) fun e t ht => ht.cause.imp_right fun hn => ?_)
      fun _ t ht => ?_
    · exact ⟨before, f, rest, hsplit, by_contra fun hns => hn (hstuck.mpr hns)⟩
    obtain ⟨⟨hstack, ht, hserved⟩, hst⟩ := ht
    have hnext : P.functions = (before ++ [f]) ++ rest := by
      rw [hsplit, List.append_assoc, List.singleton_append]
    have hrest := ih hnext (h.advance ht.trusted hserved.advances) ht.clock hstack (hhand.step hserved hst)
    refine hrest.mono (fun _ u hu => ?_) fun _ _ h => h
    obtain ⟨hu, hadv, hns, hfixed⟩ := hu
    refine ⟨hu, hserved.advances.trans hadv, fun before' g after' hsplit' hg => ?_,
      fun g hg o a ho hut ha => ?_⟩
    · obtain rfl | hg := List.mem_cons.mp hg
      · obtain ⟨c, hc', -⟩ := hserved.charges
        obtain rfl := before_eq hsplit hsplit'
        exact hstuck.mp ⟨c, hc'⟩
      · exact hns before' g after' hsplit' hg
    · obtain rfl | hg := List.mem_cons.mp hg
      · have hoh : P.Has o := mem_module hf ho
        exact hadv.fixed o a hoh hut ha (hserved.fixed (has_of_mem hf) h.trusted.regular ho hut ha)
      · exact hfixed g hg o a ho hut ha

theorem Firm.module (settings : Settings) (hP : P.Acyclic) (hd : P.Discerning) (hon : Honest choose)
    (h : P.Firm durations s.insights) (hc : s.clock.limit? = some limit) (hs : s.stack = []) :
    Run.Ends (visitFromBy choose (P.configured durations settings) (P.entering durations settings choose)
        P.module.id [P.module]) s
      (fun _ t => P.Stands durations limit [] t ∧ P.Advances durations s.insights t.insights ∧
        ¬P.Blocked durations s.insights ∧
        ∀ o a, P.Has o → P.Untargeted o → o.Owns a → P.Fixed durations t.insights a)
      (fun e _ => Spent limit e ∨ P.Blocked durations s.insights) := by
  rw [visitFromBy, show nested? P.module.id P.module = none from if_pos rfl]
  have hstands : P.Stands durations limit [] s := ⟨hc, h.trusted⟩
  refine Run.ends_bind ((hstands.tick (p := False)).mono (fun _ _ h => h) fun e t ht =>
    .inl (ht.cause.resolve_right id)) fun _ t ht => ?_
  obtain ⟨hstack, hins, ht⟩ := ht
  refine Run.ends_bind_of_ok (visitBy_of_not_isCall rfl t) ?_
  have hstart : P.Handing s.insights [] t.insights := by
    intro k _
    rw [hins]
    refine ⟨.inl, ?_⟩
    rintro (h | ⟨_, hg, _⟩)
    · exact h
    · exact absurd hg List.not_mem_nil
  have hfs := Firm.functions settings hP hd hon P.functions rfl (hins ▸ h) ht.clock
    (hstack.trans hs) hstart
  rw [← List.append_nil (P.functions.map Function.artifact)] at hfs
  refine hfs.mono (fun _ u hu => ?_) fun _ _ h => h
  obtain ⟨hu, hadv, hns, hfixed⟩ := hu
  refine ⟨hu, hins ▸ hadv, ?_, fun o a ho hut ha => ?_⟩
  · rintro ⟨before, f, after, hsplit, hstuck⟩
    exact hns before f after hsplit (hsplit ▸ List.mem_append_right _ List.mem_cons_self) hstuck
  · obtain ⟨F, hF, hoF⟩ := ho.top
    exact hfixed F hF o a hoF hut ha

theorem isFunction_of_ofArtifact? (h : Function.ofArtifact? a = none) : a.isFunction = false := by
  cases a <;> first | rfl | cases h

theorem Firm.node (settings : Settings) (hP : P.Acyclic) (hd : P.Discerning) (hon : Honest choose)
    (h : P.Firm durations s.insights) (hc : s.clock.limit? = some limit) (hs : s.stack = [])
    (ho : P.Has o) (ha : o.Owns a) (hn : a.isFunction = false) :
    Run.Ends (visitFromBy choose (P.configured durations settings) (P.entering durations settings choose)
        a.id [a]) s
      (fun _ t => P.Stands durations limit [] t ∧ P.Advances durations s.insights t.insights)
      (fun _ _ => True) := by
  have hmod : ∀ b ∈ walkFrom [a], b ∈ P.module.walk := fun b hb =>
    mem_module_of_mem_walk ho (mem_body (Artifact.mem_walkFrom_of_mem_walk ha.mem_walkFrom hb))
  have hserves : ∀ k, P.Has k → P.Serves durations limit [] [] (P.entering durations settings choose) k :=
    fun k hk => serves_entering durations limit settings hP hd hon hk (List.forall_mem_nil _)
  have hroot : ∀ b ∈ walkFrom [a], b.isFunction = true → b.id ≠ a.id := by
    intro b hb hf hid
    obtain rfl := eq_of_id_eq (hmod b hb) (hmod a a.mem_walk_self) hid
    exact Bool.false_ne_true (hn.symm.trans hf)
  have hvisit := Stands.visitFromBy settings hP hd hon a.id [a]
    (spares_entering P durations settings hon) ho hroot
    (fun b hb => List.mem_singleton.mp hb ▸ ha)
    ((P.unshared.of_map _).sublist (Artifact.walk_sublist (hmod a a.mem_walk_self)))
    (fun b _ g hg => ⟨rfl, List.not_mem_nil, hserves g (has_of_target? hg)⟩)
    (fun k hk => hserves k (hmod _ hk)) ⟨hc, h.trusted⟩ hs rfl
  exact hvisit.mono (fun _ t ht => ⟨ht.2.1, ht.2.2.advances⟩) fun _ _ _ => trivial

theorem Firm.analyzed (settings : Settings) (hP : P.Acyclic) (hd : P.Discerning) (hon : Honest choose)
    (h : P.Firm durations s.insights) (hc : s.clock.limit? = some limit) (hs : s.stack = [])
    (ha : a ∈ P.module.walk) :
    Run.Ends (Analysis.analyzeBy choose (P.configured durations settings) a) s
      (fun _ t => P.Firm durations t.insights) (fun _ _ => True) := by
  rw [Analysis.analyzeBy]
  cases hfun : Function.ofArtifact? a with
  | some f =>
    obtain rfl : f.artifact = a := by cases a <;> cases hfun; rfl
    have hserve := serves_entering durations limit settings hP hd hon (f := f) ha
      (List.forall_mem_nil _) s hs ⟨hc, h.trusted⟩
    refine Run.ends_bind (hserve.mono (fun _ _ h => h) fun _ _ _ => trivial) fun _ t ht => ?_
    exact Run.ends_bind_of_ok (Run.insights_apply t)
      (Run.ends_pure (h.advance ht.2.1.trusted ht.2.2.advances))
  | none =>
    have hvisit : Run.Ends (visitFromBy choose (P.configured durations settings)
        (P.entering durations settings choose) a.id [a]) s
        (fun _ t => P.Stands durations limit [] t ∧ P.Advances durations s.insights t.insights)
        (fun _ _ => True) := by
      rw [walk_module, List.mem_cons, List.mem_flatMap] at ha
      obtain rfl | ⟨F, hF, haF⟩ := ha
      · exact (h.module settings hP hd hon hc hs).mono (fun _ t ht => ⟨ht.1, ht.2.1⟩) fun _ _ _ => trivial
      · rw [walk_function, List.mem_cons] at haF
        obtain rfl | haF := haF
        · cases hfun
        · obtain ⟨o, ho, hown⟩ := exists_owner haF
          exact h.node settings hP hd hon hc hs (mem_module hF ho) hown (isFunction_of_ofArtifact? hfun)
    exact Run.ends_bind hvisit fun _ t ht => Run.ends_pure (h.advance ht.1.trusted ht.2)

theorem limit?_of_forLimit {v : Value} {clock : Clock} (h : Clock.forLimit v = .ok clock) :
    ∃ limit, clock.limit? = some limit := by
  have meter : ∀ {v w : Value} {clock : Clock}, Clock.meter v w = .ok clock →
      ∃ limit, clock.limit? = some limit := by
    intro v w clock h
    rw [Clock.meter] at h
    obtain ⟨l, -, h⟩ := ok_of_bind h
    split at h
    · cases h
    · obtain ⟨c, -, h⟩ := ok_of_bind h
      split at h <;> cases h
      exact ⟨_, rfl⟩
  unfold Clock.forLimit at h
  split at h
  · cases h
    exact ⟨_, rfl⟩
  · exact meter h

theorem Reached.firm (hP : P.Acyclic) (hd : P.Discerning) (h : P.Reached durations insights) :
    P.Firm durations insights := by
  induction h with
  | start =>
    refine ⟨P.trusted_empty durations, fun k _ σ hσ => ?_⟩
    rw [Insights.callArgs?_empty] at hσ
    cases hσ
  | @step insights _ settings hon a ha paths hok ih =>
    cases hclock : Clock.forLimit settings.maxTicks with
    | error e =>
      have : (analyze (P.configured durations settings) insights a).result = .error e := by
        rw [analyze, show Clock.forLimit (P.configured durations settings).settings.maxTicks = .error e
          from hclock]
      rw [this] at hok
      cases hok
    | ok clock =>
      obtain ⟨limit, hlimit⟩ := limit?_of_forLimit hclock
      obtain ⟨hresult, hinsights⟩ := analyze_eq (P.configured durations settings) hclock insights a
      have hend := ih.analyzed (s := { insights, clock }) settings hP hd
        (honest_shouldAnalyze (P.configured durations settings) hon) hlimit rfl ha
      rw [hresult] at hok
      rw [hinsights]
      unfold Run.Ends at hend
      generalize Analysis.analyzeBy _ _ _ _ = r at hok hend
      obtain ⟨_, t⟩ := r
      obtain rfl : _ = Except.ok paths := hok
      exact hend

def runAlways (P : Program) (durations : Durations) (insights : Insights) :
    Except Fault (Option (List Path)) × State :=
  analyzeBy Analysis.always (P.setup durations) P.module { insights, clock := .unbounded 0 }

/-- Under any honest policy an unbounded analysis of the module completes unless a function is stuck,
and it fixes the calls that no arguments reach. -/
theorem Firm.unbounded (hP : P.Acyclic) (hd : P.Discerning) (hon : Honest choose)
    (h : P.Firm durations insights) {r : Except Fault (Option (List Path)) × State}
    (hr : analyzeBy choose (P.setup durations) P.module { insights, clock := .unbounded 0 } = r) :
    (r.1 = .ok none ↔ ¬P.Blocked durations insights) ∧
      (r.1 = .ok none → ∀ o a, P.Has o → P.Untargeted o → o.Owns a →
        P.Fixed durations r.2.insights a) := by
  have hend := h.module (s := { insights, clock := .unbounded 0 }) {} hP hd hon rfl rfl
  have hrun : analyzeBy choose (P.setup durations) P.module = do
      visitFromBy choose (P.configured durations {}) (P.entering durations {} choose) P.module.id
        [P.module]
      return none := rfl
  rw [hrun] at hr
  unfold Run.Ends at hend
  rcases hv : visitFromBy choose (P.configured durations {}) (P.entering durations {} choose)
    P.module.id [P.module] { insights, clock := .unbounded 0 } with ⟨e | u, t⟩ <;> rw [hv] at hend
  · obtain rfl := (Run.bind_of_error hv _).symm.trans hr
    obtain ⟨l, _, hl, -⟩ | hblocked := hend
    · cases hl
    · refine ⟨⟨fun hr => ?_, fun h => absurd hblocked h⟩, fun hr => ?_⟩ <;> cases hr
  · obtain rfl := (Run.bind_of_ok hv _).symm.trans hr
    obtain ⟨-, -, hfree, hfixed⟩ := hend
    exact ⟨⟨fun _ => hfree, fun _ => rfl⟩, fun _ => hfixed⟩

/-- In a discerning program without recursion it makes no difference whether functions that are up to
date are left out: the analysis of the module completes or not in both cases, and a function that no
call resolves to ends up with the same durations. -/
theorem run_transparent (P : Program) (durations : Durations) (hP : P.Acyclic) (hd : P.Discerning)
    {insights : Insights} (h : P.Reached durations insights) :
    ((P.run durations insights).result = .ok none ↔ (P.runAlways durations insights).1 = .ok none) ∧
      ((P.run durations insights).result = .ok none →
        ∀ f a, P.Has f → P.Untargeted f → f.Owns a →
          (P.run durations insights).insights.duration? a.id =
              (P.runAlways durations insights).2.insights.duration? a.id ∧
            (P.run durations insights).insights.durationSource? a.id =
              (P.runAlways durations insights).2.insights.durationSource? a.id) := by
  have hfirm := h.firm hP hd
  have hclock : Clock.forLimit (P.setup durations).settings.maxTicks = .ok (.unbounded 0) := rfl
  obtain ⟨hresult, hinsights⟩ := analyze_eq (P.setup durations) hclock insights P.module
  obtain ⟨hok, hfixed⟩ := hfirm.unbounded hP hd
    (honest_shouldAnalyze (P.setup durations) rfl) rfl
  obtain ⟨hok', hfixed'⟩ := hfirm.unbounded hP hd honest_always (r := P.runAlways durations insights) rfl
  rw [← hresult] at hok hfixed
  rw [← hinsights] at hfixed
  refine ⟨hok.trans hok'.symm, fun hrun f a hf hu ha => ?_⟩
  obtain ⟨x, hx, hshow⟩ := hfixed hrun f a hf hu ha
  obtain ⟨y, hy, hshow'⟩ := hfixed' (hok'.mpr (hok.mp hrun)) f a hf hu ha
  obtain rfl := hx.unique hy
  exact ⟨hshow.duration.trans hshow'.duration.symm, hshow.source.trans hshow'.source.symm⟩

theorem constants_wrapperChain : wrapperChain.Constants :=
  .of_flat plain_wrapperChain.flat plain_wrapperChain.parameters (by decide +kernel)

theorem result_wrapperChain : (wrapperChain.run waits {}).result = .ok none := by
  obtain ⟨e, -, hf⟩ | ⟨hr, -⟩ := run_complete plain_wrapperChain (coherent_empty wrapperChain waits)
  · obtain hb | ⟨-, ho⟩ := hf.cause plain_wrapperChain
    · exact absurd hb (covered_wrapperChain.not_broken e)
    · exact absurd ho covered_wrapperChain.not_overflows
  · exact hr

/-- The second analysis leaves out all that is called, for everything is up to date. -/
theorem wrapperChain_transparent :
    wrapperChain.Acyclic ∧ wrapperChain.Discerning ∧
      wrapperChain.Reached waits (wrapperChain.run waits {}).insights ∧
      ((wrapperChain.run waits (wrapperChain.run waits {}).insights).result = .ok none ↔
        (wrapperChain.runAlways waits (wrapperChain.run waits {}).insights).1 = .ok none) ∧
      ((wrapperChain.run waits (wrapperChain.run waits {}).insights).result = .ok none →
        ∀ f a, wrapperChain.Has f → wrapperChain.Untargeted f → f.Owns a →
          (wrapperChain.run waits (wrapperChain.run waits {}).insights).insights.duration? a.id =
              (wrapperChain.runAlways waits
                (wrapperChain.run waits {}).insights).2.insights.duration? a.id ∧
            (wrapperChain.run waits (wrapperChain.run waits {}).insights).insights.durationSource? a.id =
              (wrapperChain.runAlways waits
                (wrapperChain.run waits {}).insights).2.insights.durationSource? a.id) := by
  have hacyclic : wrapperChain.Acyclic := plain_wrapperChain.acyclic
  have hdiscerning := constants_wrapperChain.discerning plain_wrapperChain.byValue
  have hreached := Reached.start.run result_wrapperChain
  exact ⟨hacyclic, hdiscerning, hreached,
    run_transparent wrapperChain waits hacyclic hdiscerning hreached⟩

/-- A wrapper that hands its argument on. It is called with a parameter first, and then with a value
that is unknown: the signatures agree, but only the second one counts as resolved. -/
def relayed : Program :=
  let x : Draft := .reference none "x" (some 0)
  ofDrafts [
    .defining "relay" [x] [.calling "wrap" [x]],
    .defining "main" [] [.calling "wrap" [.reference none "now" none]],
    .defining "wrap" [x] [.calling "work" [x], .calling "slow" []],
    .defining "work" [x] [.calling "slow" []],
    .defining "slow" [] []] rfl

def hundred : Durations := ⟨⟨[("slow", .int 100)]⟩⟩

theorem ascending_relayed : relayed.Ascending Function.id := by
  decide +kernel

theorem owns_of_flat (flat : ∀ b ∈ body f, b.isFunction = false) (ha : a ∈ body f) : f.Owns a := by
  obtain ⟨o, ho, hown⟩ := exists_owner ha
  rw [walk_function, List.mem_cons] at ho
  obtain ho | ho := ho
  · exact Function.artifact_injective ho ▸ hown
  · cases flat _ ho

def callTimes (P : Program) (insights : Insights) (name : String) : List Value :=
  (P.functions.filter (·.name = name)).flatMap fun f =>
    (body f).filterMap fun a => (insights.duration? a.id).map (·.value)

set_option maxRecDepth 20000 in
theorem relayed_not_transparent :
    relayed.Acyclic ∧ relayed.Reached hundred {} ∧
      ¬∀ f a, relayed.Has f → relayed.Untargeted f → f.Owns a →
        (relayed.run hundred {}).insights.duration? a.id =
          (relayed.runAlways hundred {}).2.insights.duration? a.id := by
  refine ⟨ascending_relayed.acyclic, .start, fun same => ?_⟩
  have huncalled : ∀ a ∈ relayed.module.walk,
      ((relayed.forest.target? a).all (·.name ≠ "main")) = true := by
    decide +kernel
  have hflat : ∀ f ∈ relayed.functions, ∀ b ∈ body f, b.isFunction = false := by decide +kernel
  have htimes : relayed.callTimes (relayed.run hundred {}).insights "main" =
      relayed.callTimes (relayed.runAlways hundred {}).2.insights "main" := by
    unfold callTimes
    refine List.flatMap_congr fun f hf => List.filterMap_congr fun a ha => ?_
    obtain ⟨hf, hname⟩ := List.mem_filter.mp hf
    rw [same f a (has_of_mem hf) (fun b hb hg => ?_) (owns_of_flat (hflat f hf) ha)]
    have := huncalled b hb
    rw [hg] at this
    exact absurd (of_decide_eq_true hname) (of_decide_eq_true this)
  have hleft : relayed.callTimes (relayed.run hundred {}).insights "main" = [.int 100] := by cbv
  have hright : relayed.callTimes (relayed.runAlways hundred {}).2.insights "main" = [.int 200] := by cbv
  rw [hleft, hright] at htimes
  simp at htimes

end Program

end CallTime

import CallTime.Proofs.Coherence
import CallTime.Proofs.Drafts
import CallTime.Proofs.Failure
import CallTime.Proofs.Machine

/-!
The analysis of a program without recursion gives every call its cost.
-/

namespace CallTime.Program

open Analysis Relation
open Artifact (under walkFrom walkFrom_cons)

variable {P : Program} {durations : Durations} {stack : List Function} {f g : Function}
  {ρ : Signature} {s t : State} {call : Artifact}

/-- A function was analysed for the arguments it has, and handed arguments on. -/
structure Entered (P : Program) (g : Function) (s t : State) : Prop where
  analyzed : t.insights.analyzedArgs? g = some ((s.insights.effectiveArgs g).map (under []))
  spares : Spares (P.forest.Touches [g.artifact]) s t
  noted : KeepsNoted s t
  hands : ∀ f call, P.Hands g f call → (t.insights.effectiveArgs f).map (under []) =
    Signature.substitute ((s.insights.effectiveArgs g).map (under [])) call

/-- What entering a function comes to: it is settled for the arguments it has. -/
def Enters (P : Program) (durations : Durations) (stack : List Function)
    (enter : Function → Run Unit) : Prop :=
  ∀ g ∈ P.functions, P.Above stack g → ∀ s, P.Steady durations stack (g :: stack) s →
    Run.Yields (P.Fails durations) (enter g) s fun _ t => P.Steady durations stack stack t ∧
      P.Entered g s t

theorem Visiting.clock (h : P.Visiting durations stack f ρ s) (m : Int) :
    P.Visiting durations stack f ρ { s with clock := .unbounded m } :=
  ⟨⟨h.steady.stack, ⟨m, rfl⟩, h.steady.coherent⟩, h.current, h.analyzed, h.paths⟩

theorem Visiting.of_steady (h : P.Visiting durations stack f ρ s)
    (ht : P.Steady durations (f :: stack) (f :: stack) t)
    (he : ∀ k, t.insights.get? f.id k = s.insights.get? f.id k) :
    P.Visiting durations stack f ρ t where
  steady := ht
  current := by
    rw [Insights.effectiveArgs_congr (he _)]
    exact h.current
  analyzed := (Insights.analyzedArgs?_congr (he _)).trans h.analyzed
  paths := by
    rw [Insights.paths?_congr (he _)]
    exact h.paths

theorem Costed.congr {insights insights' : Insights} (h : P.Costed durations ρ insights call)
    (he : ∀ k, insights'.get? call.id k = insights.get? call.id k) :
    P.Costed durations ρ insights' call := by
  obtain ⟨c, hc, hs⟩ := h
  exact ⟨c, hc, hs.congr (he _) (he _)⟩

theorem markRecursive_eq (hP : P.Plain) (hf : f ∈ P.functions) (hc : call ∈ body f) (s : State) :
    markRecursive (P.setup durations) call s = (.ok (), s) := by
  have hflag : (P.setup durations).detector.flags P.forest s.insights call = .ok false := by
    change Detector.selfCall.flags P.forest s.insights call = .ok false
    simp only [Detector.selfCall]
    cases hg : P.forest.target? call with
    | none => rfl
    | some g =>
      have hne : f.id ≠ g.id := by
        intro he
        have hfg : P.forest.Calls f g := calls_of_target? hc hg
        obtain rfl := Function.artifact_injective
          ((holds_function hf).eq (holds_function (mem_of_target? hg)) he)
        exact hP.acyclic f hf (.single hfg)
      rw [enclosing?_of_mem_body (hP.flat f hf) hf hc]
      simp [hne]
  rw [markRecursive, Run.bind_of_ok (Run.insights_apply s)]
  exact Run.bind_of_ok (congrArg (·, s) hflag) _

/-- The nodes of `f` other than the call are as before. -/
def OnlyCall (f : Function) (call : Artifact) (s t : State) : Prop :=
  ∀ a ∈ f.artifact.walk, a.id ≠ call.id → ∀ k, t.insights.get? a.id k = s.insights.get? a.id k

theorem Visiting.callDuration (hP : P.Plain) {enter : Function → Run Unit}
    (he : P.Enters durations (f :: stack) enter) (h : P.Visiting durations stack f ρ s)
    (hf : f ∈ P.functions) (hs : P.Above stack f) (hc : call ∈ body f) :
    Run.Yields (P.Fails durations) (callDuration (P.setup durations) enter call) s fun _ t =>
      P.Visiting durations stack f ρ t ∧ P.Costed durations ρ t.insights call ∧
        OnlyCall f call s t ∧
        ∀ g, P.forest.target? call = some g → P.Handed g (ρ.substitute call) t.insights := by
  rw [Analysis.callDuration]
  cases hg : (P.setup durations).forest.target? call with
  | none =>
    obtain ⟨c, hshow, hn⟩ := (h.steady.coherent.tidy f hf).shown call hc
    obtain rfl := hn hg
    refine Run.yields_of_ok (Run.record_apply _ s) ⟨h.events _,
      ⟨none, cost_of_target?_eq_none hg, hshow⟩, fun _ _ _ _ => rfl, fun g hg' => ?_⟩
    cases hg.symm.trans hg'
  | some g =>
    have hgm : g ∈ P.functions := mem_of_target? hg
    have hfg : TransGen P.forest.Calls f g := .single (calls_of_target? hc hg)
    have hgf : ∀ a ∈ f.artifact.walk, a.id ≠ g.id := by
      intro a ha hid
      obtain ⟨-, rfl⟩ := hP.owner hf hgm ha g.artifact.mem_walk_self hid
      exact hP.acyclic f hf hfg
    simp only
    refine Run.yields_bind (h.approach hP hf hs hc hg) fun entered t happroached => ?_
    obtain ⟨hst, hh, ht⟩ := happroached
    have hown : ∀ a ∈ f.artifact.walk, ∀ k, t.insights.get? a.id k = s.insights.get? a.id k :=
      fun a ha k => hst _ _ fun hT => hgf a ha hT.1
    have last : ∀ u, P.Steady durations (f :: stack) (f :: stack) u →
        (∀ a ∈ f.artifact.walk, ∀ k, u.insights.get? a.id k = s.insights.get? a.id k) →
        P.Handed g (ρ.substitute call) u.insights →
        u.insights.analyzedArgs? g = some (ρ.substitute call) →
        Run.Yields (P.Fails durations) (Analysis.settle (P.setup durations) call g) u fun _ t =>
          P.Visiting durations stack f ρ t ∧ P.Costed durations ρ t.insights call ∧
            OnlyCall f call s t ∧
            ∀ k, P.forest.target? call = some k → P.Handed k (ρ.substitute call) t.insights := by
      intro u hu hsame hh ha
      have hv := h.of_steady hu (hsame _ f.artifact.mem_walk_self)
      have hset := hu.coherent.settled g hgm ((hs.descend hf hc hg).not_mem hP) _ ha
      refine (hv.settle hP hf hc hg hset hh).mono fun _ t hsettled => ?_
      obtain ⟨ht, hsp, hcost⟩ := hsettled
      refine ⟨ht, hcost, ?_, ?_⟩
      · intro a ha hne k
        exact (hsp _ _ fun hT => hne hT.1).trans (hsame a ha k)
      · intro k hk
        obtain rfl := Option.some.inj (hg.symm.trans hk)
        exact hh.congr (hsp _ _ fun hT => absurd hT.2 (by decide))
    cases entered with
    | false => exact last t ht.1 hown hh ht.2
    | true =>
      refine Run.yields_bind (he g hgm (hs.descend hf hc hg) t ht) fun _ u hu => ?_
      obtain ⟨hu, hentered⟩ := hu
      refine last u hu (fun a ha k => ?_) (hh.congr (hentered.spares _ _ ?_))
        (hh.current ▸ hentered.analyzed)
      · exact (hentered.spares _ _ (hP.not_touches hf hfg ha k)).trans (hown a ha k)
      · exact hP.not_touches_callArgs hgm fun hg =>
          hP.acyclic g hgm (Forest.calledFrom_function.mp hg)

theorem passes_eq (P : Program) (durations : Durations) :
    (P.setup durations).passes.filter (!·.overPaths) = [.recursiveCall, .callDuration] ∧
      (P.setup durations).passes.filter (·.overPaths) = [.pathDuration] :=
  ⟨rfl, rfl⟩

theorem visit_of_not_isCall {setup : Setup} {enter : Function → Run Unit} {a : Artifact}
    (h : a.isCall = false) (s : State) :
    [Pass.recursiveCall, .callDuration].forM (visit setup enter a) s = (.ok (), s) := by
  cases a <;> first | rfl | cases h

theorem visit_of_isCall {setup : Setup} {enter : Function → Run Unit} {a : Artifact}
    (h : a.isCall = true) :
    [Pass.recursiveCall, .callDuration].forM (visit setup enter a) = (do
      markRecursive setup a
      callDuration setup enter a
      return ()) := by
  cases a <;> first | rfl | cases h

theorem nested?_eq_none (hP : P.Plain) (hf : f ∈ P.functions) {a : Artifact}
    (ha : a ∈ f.artifact.walk) : nested? f.id a = none := by
  rw [walk_function, List.mem_cons] at ha
  obtain rfl | ha := ha
  · exact if_pos rfl
  · have hflat := hP.flat f hf a ha
    rw [nested?]
    split
    · rfl
    · cases a <;> first | rfl | cases hflat

theorem mem_body_of_isCall {a : Artifact} (ha : a ∈ f.artifact.walk) (hc : a.isCall = true) :
    a ∈ body f := by
  rw [walk_function, List.mem_cons] at ha
  obtain rfl | ha := ha
  · cases hc
  · exact ha

theorem Visiting.node (hP : P.Plain) {enter : Function → Run Unit}
    (he : P.Enters durations (f :: stack) enter) (h : P.Visiting durations stack f ρ s)
    (hf : f ∈ P.functions) (hs : P.Above stack f) {a : Artifact} (ha : a ∈ f.artifact.walk) :
    Run.Yields (P.Fails durations)
      ([Pass.recursiveCall, .callDuration].forM (visit (P.setup durations) enter a)) s fun _ t =>
        P.Visiting durations stack f ρ t ∧
        (a.isCall = true → P.Costed durations ρ t.insights a) ∧ OnlyCall f a s t ∧
        ∀ g, P.forest.target? a = some g → P.Handed g (ρ.substitute a) t.insights := by
  cases hc : a.isCall with
  | false =>
    refine Run.yields_of_ok (visit_of_not_isCall hc s)
      ⟨h, fun hcall => ?_, fun _ _ _ _ => rfl, fun g hg => ?_⟩
    · cases hcall
    · cases hc.symm.trans (isCall_of_target? hg)
  | true =>
    have hb := mem_body_of_isCall ha hc
    rw [visit_of_isCall hc]
    refine Run.yields_bind_of_ok (markRecursive_eq hP hf hb s) ?_
    refine Run.yields_bind (h.callDuration hP he hf hs hb) fun _ t hcall => ?_
    exact Run.yields_pure ⟨hcall.1, fun _ => hcall.2.1, hcall.2.2⟩

/-- The nodes of a function were visited: the calls among them have their costs, those that had their
costs keep them, and the last call that leads to a function has handed its arguments on. -/
structure Visited (P : Program) (durations : Durations) (stack : List Function) (f : Function)
    (ρ : Signature) (pending : List Artifact) (s t : State) : Prop where
  visiting : P.Visiting durations stack f ρ t
  costed : ∀ call ∈ body f, call.isCall = true →
    call ∈ walkFrom pending ∨ P.Costed durations ρ s.insights call →
      P.Costed durations ρ t.insights call
  hands : ∀ g before call after, walkFrom pending = before ++ call :: after →
    P.forest.target? call = some g →
    (∀ a ∈ after, ∀ h, P.forest.target? a = some h → ¬ReflTransGen P.forest.Calls h g) →
      (t.insights.effectiveArgs g).map (under []) = ρ.substitute call

theorem Visiting.visitFrom (hP : P.Plain) {enter : Function → Run Unit}
    (he : P.Enters durations (f :: stack) enter)
    (hsp : ∀ g, Run.Respects (Spares (P.forest.Touches [g.artifact])) (enter g))
    (hf : f ∈ P.functions) (hs : P.Above stack f) {pending : List Artifact}
    (hp : ∀ a ∈ walkFrom pending, a ∈ f.artifact.walk) (h : P.Visiting durations stack f ρ s) :
    Run.Yields (P.Fails durations) (visitFrom (P.setup durations) enter f.id pending) s fun _ t =>
      P.Visited durations stack f ρ pending s t := by
  induction pending using visitFrom.induct f.id generalizing s with
  | case1 =>
    rw [Analysis.visitFrom]
    refine Run.yields_pure ⟨h, fun call _ _ hc => hc.resolve_left ?_, ?_⟩
    · rw [walkFrom]
      exact List.not_mem_nil
    · intro g before call after hw
      rw [walkFrom] at hw
      cases before <;> cases hw
  | case2 a pending g hg ih =>
    rw [walkFrom_cons] at hp
    have ha := hp a (List.mem_append_left _ a.mem_walk_self)
    rw [nested?_eq_none hP hf ha] at hg
    cases hg
  | case3 a pending hg ih =>
    rw [walkFrom] at hp
    have ha := hp a List.mem_cons_self
    obtain ⟨m, hm⟩ := h.steady.clock
    rw [Analysis.visitFrom, hg]
    refine Run.yields_bind_of_ok (Run.tick_apply 1 s hm) ?_
    rw [(passes_eq P durations).1]
    refine Run.yields_bind ((h.clock (m + 1)).node hP he hf hs ha) fun _ t hnode => ?_
    obtain ⟨ht, hcost, honly, hhanded⟩ := hnode
    have hrest := (ih (fun b hb => hp b (List.mem_cons_of_mem a hb)) ht).and_respects
      (spares_visitFrom (P.setup durations) hsp f.id (a.children ++ pending))
    refine hrest.mono fun _ u hu => ?_
    obtain ⟨hu, htu⟩ := hu
    refine ⟨hu.visiting, ?_, ?_⟩
    · intro call hb hcall hor
      refine hu.costed call hb hcall ?_
      rw [walkFrom] at hor
      by_cases hid : call.id = a.id
      · obtain rfl := (holds_body hf hb).eq (holds (mem_module hf ha)) hid
        exact .inr (hcost hcall)
      · obtain hor | hor := hor
        · obtain rfl | hor := List.mem_cons.mp hor
          · exact absurd rfl hid
          · exact .inl hor
        · exact .inr (hor.congr (honly call (mem_walk_of_mem_body hb) hid))
    · intro g before call after hw hg hafter
      rw [walkFrom] at hw
      cases before with
      | nil =>
        -- The last call that leads to `g`: what comes after it leaves the arguments of `g` alone.
        cases hw
        have hno : ¬P.forest.CalledFrom (a.children ++ pending) g := by
          rintro ⟨b, hb, k, hk, hl⟩
          exact hafter b hb k hk hl
        have hsame := htu _ _ (hP.not_touches_callArgs (mem_of_target? hg) hno)
        exact ((hhanded g hg).congr hsame).current
      | cons b before =>
        rw [List.cons_append, List.cons.injEq] at hw
        exact hu.hands g before call after hw.2 hg hafter

theorem Visiting.pathDurations (hP : P.Plain) (h : P.Visiting durations stack f ρ s)
    (hf : f ∈ P.functions)
    (hc : ∀ call ∈ body f, call.isCall = true → P.Costed durations ρ s.insights call) :
    Run.Yields (P.Fails durations) (visitPaths f .pathDuration) s fun _ t =>
      P.Steady durations (f :: stack) stack t ∧ t.insights.analyzedArgs? f = some ρ ∧
        ∀ i k, k ≠ .paths → t.insights.get? i k = s.insights.get? i k := by
  have htidy := h.steady.coherent.tidy f hf
  obtain ⟨ps, hps⟩ := Option.isSome_iff_exists.mp h.paths
  obtain ⟨old, hold, rfl⟩ := htidy.paths ps hps
  obtain ⟨ds, es, hds, htimed, hrun⟩ := pathDurations_eq hP hf hc hold hps
  have hst : Spares (fun i k => i = f.id ∧ k = .paths) s
      (s.put f.id .paths (.note (.paths ((P.paths f).zipWith Path.timed ds)))) :=
    (tolerates_spares ⟨rfl, rfl⟩).put s _
  have hpaths := s.paths?_put f ((P.paths f).zipWith Path.timed ds)
  have hkey := fun k (hk : k ≠ Key.paths) => hst f.id k fun hT => hk hT.2
  have hanalyzed := (Insights.analyzedArgs?_congr (hkey _ (by decide))).trans h.analyzed
  have hargs := Insights.effectiveArgs_congr (hkey _ (by decide))
  refine Run.yields_of_ok hrun ⟨⟨h.steady.stack, h.steady.clock, ?_⟩, hanalyzed,
    fun i k hk => hst i k fun hT => hk hT.2⟩
  refine h.steady.coherent.update hP hf
    (fun i k hi => ⟨f.artifact, f.artifact.mem_walk_self, hi.1.symm⟩) hst ?_ ?_ fun _ σ hσ => ?_
  · exact fun g hne hg hX => (List.mem_cons.mp hX).elim hne hg
  · refine htidy.congr (fun a _ k _ hk _ => hst _ k fun hT => hk hT.2)
      (htidy.given_congr (hkey _ (by decide))) (fun ps hps' => ?_)
      (htidy.noted_congr (hkey _ (by decide)))
    rw [hpaths] at hps'
    cases hps'
    exact ⟨ds, hds, rfl⟩
  · rw [hanalyzed] at hσ
    cases hσ
    refine ⟨hargs ▸ h.current, h.arises hP hf, fun call hb hcall => ?_, _, htimed, hpaths⟩
    have hne : call.id ≠ f.id := Nat.ne_of_lt (id_lt_of_mem_body hf hb)
    exact (hc call hb hcall).congr fun k => hst _ _ fun hT => hne hT.1

/-- Entering a function settles it for the arguments it has, as deep as there are idle functions. -/
theorem enters_analyzeFunction (hP : P.Plain) (depth : Nat) {stack : List Function}
    (hi : idle P.forest stack ≤ depth) :
    P.Enters durations stack (analyzeFunction (P.setup durations) depth) := by
  induction depth generalizing stack with
  | zero =>
    intro g hg ha
    have := idle_pos (holds_function hg) (ha.inactive hP hg)
    omega
  | succ depth ih =>
    intro f hf hs s h
    have hidle := hs.inactive hP hf
    have hspares := spares_analyzeFunction (P.setup durations)
    have hnoted := respects_analyzeFunction frame_noted tolerates_noted (P.setup durations)
    have hrun : Run.Yields (P.Fails durations) (analyzeFunction (P.setup durations) (depth + 1) f) s
        fun _ t => P.Steady durations stack stack t ∧
          t.insights.analyzedArgs? f = some ((s.insights.effectiveArgs f).map (under [])) ∧
          ∀ g call, P.Hands f g call → (t.insights.effectiveArgs g).map (under []) =
            Signature.substitute ((s.insights.effectiveArgs f).map (under [])) call := by
      refine Run.yields_bind (h.begin hP hf hidle) fun entered t hbegun => ?_
      obtain ⟨rfl, ht, hargs, ha, hpaths⟩ := hbegun
      have hv : P.Visiting durations stack f ((s.insights.effectiveArgs f).map (under []))
          { t with stack := f :: t.stack } :=
        ⟨⟨congrArg (f :: ·) ht.stack, ht.clock, ht.coherent⟩, congrArg _ hargs, ha, hpaths⟩
      have hdeep : idle P.forest (f :: stack) ≤ depth := by
        have := idle_push (holds_function hf) hidle
        omega
      rw [if_pos rfl]
      refine Run.yields_within ?_
      refine Run.yields_bind (hv.visitFrom hP (ih hdeep) (hspares depth) hf hs fun a ha => ha)
        fun _ u hu => ?_
      have hall : ∀ call ∈ body f, call.isCall = true → P.Costed durations _ u.insights call :=
        fun call hb hcall => hu.costed call hb hcall (.inl (mem_walk_of_mem_body hb))
      refine Run.yields_bind (hu.visiting.pathDurations hP hf hall) fun _ v hv => ?_
      obtain ⟨hw, hana, huv⟩ := hv
      refine Run.yields_pure ⟨⟨congrArg List.tail hw.stack, hw.clock, hw.coherent⟩, hana, ?_⟩
      rintro g call ⟨hg, before, after, hb, hafter⟩
      have hargs := Insights.effectiveArgs_congr (huv g.id _ (by decide))
      refine (congrArg _ hargs).trans (hu.hands g (f.artifact :: before) call after ?_ hg hafter)
      exact (walk_function f).trans (congrArg _ hb)
    refine ((hrun.and_respects (hspares (depth + 1) f)).and_respects (hnoted (depth + 1) f)).mono
      fun _ t ht => ?_
    obtain ⟨⟨⟨ht, ha, hh⟩, hsp⟩, hn⟩ := ht
    exact ⟨ht, ha, hsp, hn, hh⟩

theorem Steady.mono {X Y : List Function} (h : P.Steady durations stack X s) (hXY : ∀ f ∈ X, f ∈ Y) :
    P.Steady durations stack Y s :=
  ⟨h.stack, h.clock, h.coherent.tidy, fun f hf hY => h.coherent.settled f hf fun hX => hY (hXY f hX)⟩

theorem nested?_module (hf : f ∈ P.functions) : nested? P.module.id f.artifact = some f := by
  have hlt : f.artifact.id < P.module.id :=
    P.sound.older _ P.held _ (List.mem_map_of_mem hf)
  rw [nested?, if_neg (Nat.ne_of_lt hlt)]
  rfl

/-- How far the analysis of a module has come, with the functions that are done: they were analysed,
and the last calls in them have handed their arguments on. -/
structure Progress (P : Program) (done : List Function) (insights : Insights) : Prop where
  analyzed : ∀ f ∈ done, (insights.analyzedArgs? f).isSome
  handed : P.Ordered → ∀ f c call, c ∈ done → P.LastCall f c call →
    (insights.effectiveArgs f).map (under []) =
      Signature.substitute ((insights.effectiveArgs c).map (under [])) call

theorem progress_nil (P : Program) (insights : Insights) : P.Progress [] insights :=
  ⟨List.forall_mem_nil _, fun _ _ _ _ hc => absurd hc List.not_mem_nil⟩

theorem Progress.step (hP : P.Plain) {done rest : List Function} (h : P.Progress done s.insights)
    (hs : P.functions = done ++ f :: rest) (he : P.Entered f s t)
    (ht : P.Coherent durations [] t.insights) : P.Progress (done ++ [f]) t.insights where
  analyzed := by
    intro g hg
    rw [List.mem_append, List.mem_singleton] at hg
    obtain hg | rfl := hg
    · have hmem : g ∈ P.functions := hs ▸ List.mem_append_left _ hg
      obtain ⟨σ, hσ⟩ := Option.isSome_iff_exists.mp (h.analyzed g hg)
      exact (ht.tidy g hmem).noted (he.noted g.id (isSome_get?_of_analyzedArgs? hσ))
    · exact Option.isSome_of_mem he.analyzed
  handed := by
    intro ho g c call hc hlast
    rw [List.mem_append, List.mem_singleton] at hc
    have hkept : ∀ k ∈ P.functions, ¬TransGen P.forest.Calls f k →
        t.insights.effectiveArgs k = s.insights.effectiveArgs k := by
      intro k hk hn
      refine Insights.effectiveArgs_congr (he.spares _ _ (hP.not_touches_callArgs hk fun hc => ?_))
      exact hn (Forest.calledFrom_function.mp hc)
    obtain hc | rfl := hc
    · rw [hkept g (mem_of_target? hlast.target) (hlast.not_leads ho hs hc),
        hkept c hlast.mem fun hl => ho.not_leads hs hc hl.to_reflTransGen]
      exact h.handed ho g c call hc hlast
    · rw [hkept c hlast.mem (hP.acyclic c hlast.mem)]
      exact he.hands g call (hlast.hands ho (hP.acyclic c hlast.mem))

theorem Steady.functions (hP : P.Plain) {enter : Function → Run Unit}
    (he : P.Enters durations [] enter) (rest : List Function) {done : List Function}
    (hs : P.functions = done ++ rest) (h : P.Steady durations [] [] s)
    (hp : P.Progress done s.insights) :
    Run.Yields (P.Fails durations)
      (visitFrom (P.setup durations) enter P.module.id (rest.map Function.artifact)) s fun _ t =>
        P.Steady durations [] [] t ∧ P.Progress P.functions t.insights := by
  induction rest generalizing done s with
  | nil =>
    rw [List.append_nil] at hs
    rw [List.map_nil, visitFrom]
    exact Run.yields_pure ⟨h, hs ▸ hp⟩
  | cons f rest ih =>
    have hf : f ∈ P.functions := hs ▸ List.mem_append_right _ List.mem_cons_self
    rw [List.map_cons, visitFrom, nested?_module hf]
    have habove : P.Above [] f := List.forall_mem_nil _
    have hsteady : P.Steady durations [] [f] s := h.mono (List.forall_mem_nil _)
    refine Run.yields_bind (he f hf habove s hsteady) fun _ t ht => ?_
    refine ih ?_ ht.1 (hp.step hP hs ht.2 ht.1.coherent)
    rw [hs, List.append_assoc, List.singleton_append]

theorem called_of_calledFrom (h : P.forest.CalledFrom [P.module] f) : P.Called f := by
  obtain ⟨call, hc, g, hg, hl⟩ := h
  have direct : P.Called g := by
    change call ∈ P.module.walk at hc
    rw [walk_module, List.mem_cons] at hc
    obtain rfl | hc := hc
    · cases hg
    · obtain ⟨k, hk, hck⟩ := List.mem_flatMap.mp hc
      exact ⟨k, hk, call, hck, hg⟩
  induction hl with
  | refl => exact direct
  | tail _ hcall ih =>
    obtain ⟨k, -, hk⟩ := ih
    exact ⟨_, mem_of_calls hk, hcall⟩

/-- What a run that went through leaves behind: every function was analysed and is settled. -/
structure Complete (P : Program) (durations : Durations) (before after : Insights) : Prop where
  coherent : P.Coherent durations [] after
  progress : P.Progress P.functions after
  uncalled : ∀ f ∈ P.functions, ¬P.Called f → after.callArgs? f = before.callArgs? f

theorem Steady.module (hP : P.Plain) (h : P.Steady durations [] [] s) :
    Run.Yields (P.Fails durations) (Analysis.visitFrom (P.setup durations)
      (analyzeFunction (P.setup durations) (functionCount (P.setup durations).forest)) P.module.id
      [P.module]) s fun _ t => P.Complete durations s.insights t.insights := by
  have he : P.Enters durations [] (analyzeFunction (P.setup durations) (functionCount P.forest)) :=
    enters_analyzeFunction hP _ (Nat.le_of_eq (idle_nil _))
  have hsp := spares_visitFrom (P.setup durations)
    (spares_analyzeFunction (P.setup durations) (functionCount P.forest)) P.module.id [P.module]
  refine Run.Yields.mono (Run.Yields.and_respects (Q := fun _ t => P.Steady durations [] [] t ∧
    P.Progress P.functions t.insights) ?_ hsp) fun _ t ht => ⟨ht.1.1.coherent, ht.1.2, ?_⟩
  · obtain ⟨m, hm⟩ := h.clock
    rw [Analysis.visitFrom, show nested? P.module.id P.module = none from if_pos rfl]
    refine Run.yields_bind_of_ok (Run.tick_apply 1 s hm) ?_
    rw [(passes_eq P durations).1]
    refine Run.yields_bind_of_ok (visit_of_not_isCall rfl _) ?_
    have h' : P.Steady durations [] [] { s with clock := .unbounded (m + 1) } :=
      ⟨h.stack, ⟨_, rfl⟩, h.coherent⟩
    have hfs := h'.functions hP he P.functions rfl (P.progress_nil _)
    rwa [← List.append_nil (P.functions.map Function.artifact)] at hfs
  · intro f hf hn
    exact Insights.callArgs?_congr
      (ht.2 _ _ (hP.not_touches_callArgs hf fun hc => hn (called_of_calledFrom hc)))

theorem run_complete (hP : P.Plain) {insights : Insights}
    (h : P.Coherent durations [] insights) :
    (∃ e, (P.run durations insights).result = .error e ∧ P.Fails durations e) ∨
      (P.run durations insights).result = .ok none ∧
        P.Complete durations insights (P.run durations insights).insights := by
  have hs : P.Steady durations [] [] { insights, clock := .unbounded 0 } := ⟨rfl, ⟨0, rfl⟩, h⟩
  have hy := hs.module hP
  have hclock : Clock.forLimit (P.setup durations).settings.maxTicks = .ok (.unbounded 0) := rfl
  have hnone : Function.ofArtifact? P.module = none := rfl
  unfold Run.Yields at hy
  rw [run, analyze, hclock]
  simp only [hnone, ExceptT.run, Run.bind_apply]
  generalize Analysis.visitFrom _ _ _ _ _ = o at hy ⊢
  obtain ⟨(e | a), t⟩ := o
  · exact .inl ⟨e, rfl, hy⟩
  · exact .inr ⟨rfl, hy⟩

theorem coherent_empty (P : Program) (durations : Durations) : P.Coherent durations [] {} where
  tidy f _ := {
    bare := Insights.duration?_of_get? (Insights.get?_empty _ _)
    unmarked := fun call _ => by
      rw [Insights.recursive?, Insights.data_empty]
      rfl
    shown := fun call _ => ⟨none, ⟨Insights.duration?_of_get? (Insights.get?_empty _ _),
      Insights.durationSource?_of_get? (Insights.get?_empty _ _)⟩, fun _ => rfl⟩
    given := fun arguments ha => by
      rw [Insights.callArgs?_empty] at ha
      cases ha
    paths := fun ps hps => by
      rw [Insights.paths?, Insights.data_empty] at hps
      cases hps
    noted := fun hn => by
      rw [Insights.get?_empty] at hn
      cases hn }
  settled f _ _ σ hσ := by
    rw [Insights.analyzedArgs?, Insights.data_empty] at hσ
    cases hσ

/-- The analysis of a module of which nothing is known yet. It fails only where a condition, a measured
duration or a mean does; otherwise every function ends up with what the reference gives for the
arguments it was analysed with last, which are unknown ones for a function that is never called. -/
theorem run_gives_costs (P : Program) (durations : Durations) (hP : P.Plain) :
    (∃ e, (P.run durations {}).result = .error e ∧
      (P.Broken durations e ∨ e = .quotientTooLarge ∧ P.Overflows durations)) ∨
    (P.run durations {}).result = .ok none ∧
      ∀ f ∈ P.functions, ∃ σ,
        (P.run durations {}).insights.analyzedArgs? f = some σ ∧
        P.Settled durations (P.run durations {}).insights f σ ∧
        (¬P.Called f → σ = f.parameters.map fun _ => none) := by
  obtain ⟨e, he, hf⟩ | ⟨hr, hc⟩ := run_complete hP (coherent_empty P durations)
  · exact .inl ⟨e, he, hf.cause hP⟩
  · refine .inr ⟨hr, fun f hf => ?_⟩
    obtain ⟨σ, hσ⟩ := Option.isSome_iff_exists.mp (hc.progress.analyzed f hf)
    have hset := hc.coherent.settled f hf (List.not_mem_nil) σ hσ
    refine ⟨σ, hσ, hset, fun hn => ?_⟩
    rw [← hset.current]
    exact effectiveArgs_eq_unknown hP hf ((hc.uncalled f hf hn).trans (Insights.callArgs?_empty f))

def wrapperChain : Program :=
  let x : Draft := .reference none "x" (some 0)
  let one : Draft := .literal none (.int 1)
  ofDrafts [
    .defining "main" [] [.calling "outer" [one]],
    .defining "outer" [x] [.calling "inner" [x]],
    .defining "inner" [x] [.branch none (some (.binary none "==" (some x) (some one)))
      (some (.calling "slow" [])) (some (.calling "fast" []))],
    .defining "slow" [] [], .defining "fast" [] []] rfl

def waits : Durations := ⟨⟨[("slow", .int 500), ("fast", .int 10)]⟩⟩

theorem ascending_wrapperChain : wrapperChain.Ascending Function.id := by
  decide +kernel

theorem plain_wrapperChain : wrapperChain.Plain where
  byValue := by decide +kernel
  acyclic := ascending_wrapperChain.acyclic
  flat := by decide +kernel
  parameters := by decide +kernel
  constant := by decide +kernel

theorem covered_wrapperChain : wrapperChain.Covered waits [[], [none], [some (.int 1)]] where
  simple := by decide +kernel
  roots := by decide +kernel
  calls := by decide +kernel
  conditions := by decide +kernel
  measured := by decide +kernel
  means := by decide +kernel

theorem wrapperChain_gives_costs :
    wrapperChain.Plain ∧ (wrapperChain.run waits {}).result = .ok none ∧
      ∀ f ∈ wrapperChain.functions, ∃ σ,
        (wrapperChain.run waits {}).insights.analyzedArgs? f = some σ ∧
        wrapperChain.Settled waits (wrapperChain.run waits {}).insights f σ ∧
        (¬wrapperChain.Called f → σ = f.parameters.map fun _ => none) := by
  refine ⟨plain_wrapperChain, ?_⟩
  obtain ⟨e, -, hb | ⟨-, ho⟩⟩ | h := run_gives_costs wrapperChain waits plain_wrapperChain
  · exact absurd hb (covered_wrapperChain.not_broken e)
  · exact absurd ho covered_wrapperChain.not_overflows
  · exact h

end CallTime.Program

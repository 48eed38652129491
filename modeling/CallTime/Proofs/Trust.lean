import CallTime.Proofs.Coherence
import CallTime.Proofs.Looks
import CallTime.Proofs.Policy

/-!
What an analysis may trust.

A function that counts as up to date is not analysed again, so its durations have to be those for the
arguments it was analysed with last. While it is under analysis, and when a run stops there, this need
not be so. Main statements: every step of a run keeps all other functions trustworthy, and a step that
fails does so because the ticks are used up or because there is no charge for some call.
-/

namespace CallTime

open Analysis

/-- The limit of a clock; there is none to speak of for a clock not started at a whole number. -/
def Clock.limit? : Clock → Option (Option Int)
  | .unbounded _ => some none
  | .loose _ => none
  | .metered limit _ => some (some limit)

def Spent (limit : Option Int) (e : Fault) : Prop := ∃ l k, limit = some l ∧ e = Clock.overrun l k

namespace Run

theorem ends_inside {body : Run Unit} {k : Function} {s : State} {Q : Unit → State → Prop}
    {R : Fault → State → Prop}
    (h : Ends body { s with stack := k :: s.stack } (fun a t => Q a { t with stack := t.stack.tail })
      R) : Ends (inside k body) s Q R := by
  unfold Ends at h ⊢
  rw [inside]
  rcases hb : body { s with stack := k :: s.stack } with ⟨e | a, t⟩ <;> rw [hb] at h <;> exact h

end Run

namespace Program

open Relation

variable {P : Program} {durations : Durations} {f g k : Function} {a : Artifact} {s t : State}
  {limit : Option Int} {stale : List Function}

structure Regular (P : Program) (insights : Insights) : Prop where
  unmarked : ∀ a ∈ P.module.walk, insights.recursive? a.id = none
  shown : ∀ a ∈ P.module.walk, ∃ c, Shows insights a c ∧ (P.forest.target? a = none → c = none)
  given : ∀ f, P.Has f → ∀ σ, insights.callArgs? f = some σ → P.Comes f (some σ)
  paths : ∀ f, P.Has f → ∀ ps, insights.paths? f = some ps →
    ∃ ds, ds.length = (P.paths f).length ∧ ps = (P.paths f).zipWith Path.timed ds

/-- If every path of the function has a duration, then these are the durations for arguments with the
signature that is noted, and every function it leads to was given arguments. -/
def Valid (P : Program) (durations : Durations) (insights : Insights) (f : Function) : Prop :=
  ∀ τ ps, insights.analyzedArgs? f = some τ → insights.paths? f = some ps →
    ps.all (Path.has .pathDuration) = true →
      ∃ ρ c, P.Comes f ρ ∧ Signature.of (ρ.getD f.parameters) = .ok τ ∧
        P.Charges durations f ρ c ∧ ps = P.timed f c ∧
        ∀ k, TransGen P.forest.Calls f k → (insights.callArgs? k).isSome

/-- What is known about the functions is right, apart from those that are stale. -/
structure Trusted (P : Program) (durations : Durations) (stale : List Function) (insights : Insights) :
    Prop where
  regular : P.Regular insights
  valid : ∀ f ∈ P.functions, f ∉ stale → P.Valid durations insights f

section Congr

variable {s t : Insights}

theorem Regular.unmarked_congr (h : P.Regular s)
    (he : ∀ i, t.get? i .recursiveCall = s.get? i .recursiveCall) :
    ∀ a ∈ P.module.walk, t.recursive? a.id = none :=
  fun a ha => (Insights.recursive?_congr (he a.id)).trans (h.unmarked a ha)

theorem Regular.shown_congr (h : P.Regular s)
    (hd : ∀ i, t.get? i .functionDuration = s.get? i .functionDuration)
    (hs : ∀ i, t.get? i .durationSource = s.get? i .durationSource) :
    ∀ a ∈ P.module.walk, ∃ c, Shows t a c ∧ (P.forest.target? a = none → c = none) := by
  intro a ha
  obtain ⟨c, hc, hn⟩ := h.shown a ha
  exact ⟨c, hc.congr (hd a.id) (hs a.id), hn⟩

theorem Regular.given_congr (h : P.Regular s) (he : ∀ i, t.get? i .callArgs = s.get? i .callArgs) :
    ∀ f, P.Has f → ∀ σ, t.callArgs? f = some σ → P.Comes f (some σ) :=
  fun f hf σ hσ => h.given f hf σ ((Insights.callArgs?_congr (he f.id)).symm.trans hσ)

theorem Regular.paths_congr (h : P.Regular s) (he : ∀ i, t.get? i .paths = s.get? i .paths) :
    ∀ f, P.Has f → ∀ ps, t.paths? f = some ps →
      ∃ ds, ds.length = (P.paths f).length ∧ ps = (P.paths f).zipWith Path.timed ds :=
  fun f hf ps hps => h.paths f hf ps ((Insights.paths?_congr (he f.id)).symm.trans hps)

theorem Valid.congr (h : P.Valid durations s f)
    (ha : t.get? f.id .analyzedArgs = s.get? f.id .analyzedArgs)
    (hp : t.get? f.id .paths = s.get? f.id .paths)
    (hg : ∀ k, (s.callArgs? k).isSome → (t.callArgs? k).isSome) : P.Valid durations t f := by
  intro τ ps hτ hps hall
  obtain ⟨ρ, c, hcomes, hsig, hcharges, heq, hgiven⟩ := h τ ps
    ((Insights.analyzedArgs?_congr ha).symm.trans hτ) ((Insights.paths?_congr hp).symm.trans hps) hall
  exact ⟨ρ, c, hcomes, hsig, hcharges, heq, fun k hk => hg k (hgiven k hk)⟩

end Congr

theorem eq_of_fid_eq (hf : P.Has f) (hg : P.Has g) (h : f.id = g.id) : f = g :=
  Function.artifact_injective (eq_of_id_eq hf hg h)

theorem get?_of_spares {i j : NodeId} {k k' : Key} (hst : Spares (fun i' k' => i' = i ∧ k' = k) s t)
    (h : j ≠ i ∨ k' ≠ k) : t.insights.get? j k' = s.insights.get? j k' :=
  hst j k' fun hT => h.elim (fun h => h hT.1) (fun h => h hT.2)

theorem Trusted.propagated (h : P.Trusted durations stale s.insights) (hg : P.Has g)
    {σ : List Artifact} (hst : Spares (fun i k => i = g.id ∧ k = .callArgs) s t)
    (hargs : t.insights.callArgs? g = some σ) (hσ : P.Comes g (some σ)) :
    P.Trusted durations stale t.insights := by
  have hkey : ∀ k, k ≠ .callArgs → ∀ i, t.insights.get? i k = s.insights.get? i k :=
    fun k hk i => get?_of_spares hst (.inr hk)
  have hother : ∀ f, f.id ≠ g.id → t.insights.callArgs? f = s.insights.callArgs? f :=
    fun f hf => Insights.callArgs?_congr (get?_of_spares hst (.inl hf))
  refine ⟨⟨h.regular.unmarked_congr (hkey _ (by decide)), h.regular.shown_congr (hkey _ (by decide))
    (hkey _ (by decide)), fun f hf τ hτ => ?_, h.regular.paths_congr (hkey _ (by decide))⟩,
    fun f hf hn => (h.valid f hf hn).congr (hkey _ (by decide) _) (hkey _ (by decide) _) fun k hk => ?_⟩
  · by_cases hid : f.id = g.id
    · obtain rfl := eq_of_fid_eq hf hg hid
      cases hargs.symm.trans hτ
      exact hσ
    · exact h.regular.given f hf τ ((hother f hid).symm.trans hτ)
  · by_cases hid : k.id = g.id
    · have heq : t.insights.callArgs? k = t.insights.callArgs? g := by
        rw [Insights.callArgs?, Insights.callArgs?, hid]
      rw [heq, hargs]
      rfl
    · rw [hother k hid]
      exact hk

/-- New durations on the paths of a function concern that function only. -/
theorem Trusted.timed (h : P.Trusted durations stale s.insights) (hf : P.Has f)
    (hst : Spares (fun i k => i = f.id ∧ k = .paths) s t) {ds : List (Option Int)}
    (hps : t.insights.paths? f = some ((P.paths f).zipWith Path.timed ds))
    (hds : ds.length = (P.paths f).length)
    (hvalid : f ∈ P.functions → f ∉ stale → P.Valid durations t.insights f) :
    P.Trusted durations stale t.insights := by
  have hkey : ∀ k, k ≠ .paths → ∀ i, t.insights.get? i k = s.insights.get? i k :=
    fun k hk i => get?_of_spares hst (.inr hk)
  have hother : ∀ g : Function, g.id ≠ f.id → t.insights.get? g.id .paths = s.insights.get? g.id .paths :=
    fun g hg => get?_of_spares hst (.inl hg)
  refine ⟨⟨h.regular.unmarked_congr (hkey _ (by decide)), h.regular.shown_congr (hkey _ (by decide))
    (hkey _ (by decide)), h.regular.given_congr (hkey _ (by decide)), fun g hg ps hps' => ?_⟩,
    fun g hg hn => ?_⟩
  · by_cases hid : g.id = f.id
    · obtain rfl := eq_of_fid_eq hg hf hid
      cases hps.symm.trans hps'
      exact ⟨ds, hds, rfl⟩
    · exact h.regular.paths g hg ps ((Insights.paths?_congr (hother g hid)).symm.trans hps')
  · by_cases hid : g.id = f.id
    · obtain rfl := eq_of_fid_eq (has_of_mem hg) hf hid
      exact hvalid hg hn
    · refine (h.valid g hg hn).congr (hkey _ (by decide) _) (hother g hid) fun k hk => ?_
      rwa [Insights.callArgs?_congr (hkey .callArgs (by decide) k.id)]

theorem Trusted.noted (h : P.Trusted durations stale s.insights) (hf : P.Has f)
    (hst : Spares (fun i k => i = f.id ∧ k = .analyzedArgs) s t) :
    P.Trusted durations (f :: stale) t.insights := by
  have hkey : ∀ k, k ≠ .analyzedArgs → ∀ i, t.insights.get? i k = s.insights.get? i k :=
    fun k hk i => get?_of_spares hst (.inr hk)
  refine ⟨⟨h.regular.unmarked_congr (hkey _ (by decide)), h.regular.shown_congr (hkey _ (by decide))
    (hkey _ (by decide)), h.regular.given_congr (hkey _ (by decide)),
    h.regular.paths_congr (hkey _ (by decide))⟩, fun g hg hn => ?_⟩
  have hne : g.id ≠ f.id := fun hid => hn (eq_of_fid_eq (has_of_mem hg) hf hid ▸ List.mem_cons_self)
  refine (h.valid g hg fun hm => hn (List.mem_cons_of_mem f hm)).congr (get?_of_spares hst (.inl hne))
    (hkey _ (by decide) _) fun k hk => ?_
  rwa [Insights.callArgs?_congr (hkey .callArgs (by decide) k.id)]

theorem Trusted.stored (h : P.Trusted durations stale s.insights) (ha : a ∈ P.module.walk)
    {c : Cost} (hw : Writes s t a c) (hn : P.forest.target? a = none → c = none) :
    P.Trusted durations stale t.insights := by
  have hkey : ∀ k, k ≠ .functionDuration → k ≠ .durationSource → ∀ i,
      t.insights.get? i k = s.insights.get? i k :=
    fun k hd hs i => hw.spares i k fun hT => hT.2.elim hd hs
  refine ⟨⟨h.regular.unmarked_congr (hkey _ (by decide) (by decide)), fun b hb => ?_,
    h.regular.given_congr (hkey _ (by decide) (by decide)),
    h.regular.paths_congr (hkey _ (by decide) (by decide))⟩, fun f hf hs =>
      (h.valid f hf hs).congr (hkey _ (by decide) (by decide) _) (hkey _ (by decide) (by decide) _)
        fun k hk => ?_⟩
  · by_cases hid : b.id = a.id
    · obtain rfl := eq_of_id_eq hb ha hid
      exact ⟨c, hw.shows, hn⟩
    · obtain ⟨c', hc', hn'⟩ := h.regular.shown b hb
      have hnode : ∀ k, t.insights.get? b.id k = s.insights.get? b.id k :=
        fun k => hw.spares b.id k fun hT => hid hT.1
      exact ⟨c', hc'.congr (hnode _) (hnode _), hn'⟩
  · rwa [Insights.callArgs?_congr (hkey .callArgs (by decide) (by decide) k.id)]

theorem Trusted.closed {insights : Insights} (h : P.Trusted durations (f :: stale) insights)
    (hf : f ∈ P.functions → P.Valid durations insights f) : P.Trusted durations stale insights := by
  refine ⟨h.regular, fun g hg hn => ?_⟩
  by_cases hgf : g = f
  · exact hgf ▸ hf (hgf ▸ hg)
  · exact h.valid g hg fun hm => (List.mem_cons.mp hm).elim hgf hn

theorem trusted_empty (P : Program) (durations : Durations) : P.Trusted durations [] {} where
  regular := {
    unmarked := fun a _ => by
      rw [Insights.recursive?, Insights.data_empty]
      rfl
    shown := fun a _ => ⟨none, ⟨Insights.duration?_of_get? (Insights.get?_empty _ _),
      Insights.durationSource?_of_get? (Insights.get?_empty _ _)⟩, fun _ => rfl⟩
    given := fun f _ σ hσ => by
      rw [Insights.callArgs?_empty] at hσ
      cases hσ
    paths := fun f _ ps hps => by
      rw [Insights.paths?, Insights.data_empty] at hps
      cases hps }
  valid f _ _ τ ps hτ := by
    rw [Insights.analyzedArgs?, Insights.data_empty] at hτ
    cases hτ

theorem Regular.comes {insights : Insights} (h : P.Regular insights) (hf : P.Has f) :
    P.Comes f (insights.callArgs? f) := by
  cases hσ : insights.callArgs? f with
  | none => exact .root hf
  | some σ => exact h.given f hf σ hσ

theorem Regular.bare {insights : Insights} (h : P.Regular insights) (hf : P.Has f) :
    insights.duration? f.id = none := by
  obtain ⟨c, hc, hn⟩ := h.shown f.artifact hf
  cases hn rfl
  exact hc.duration

def Untargeted (P : Program) (f : Function) : Prop := ∀ a ∈ P.module.walk, P.forest.target? a ≠ some f

def Fixed (P : Program) (durations : Durations) (insights : Insights) (a : Artifact) : Prop :=
  ∃ x, P.Charged durations none a x ∧ Shows insights a x

/-- What completed steps lead to: new arguments are such that there are charges for them, and what no
arguments reach stays fixed. -/
structure Advances (P : Program) (durations : Durations) (s t : Insights) : Prop where
  renewed : ∀ k, P.Has k → t.callArgs? k = s.callArgs? k ∨
    ∃ σ c, t.callArgs? k = some σ ∧ P.Charges durations k (some σ) c
  fixed : ∀ o a, P.Has o → P.Untargeted o → o.Owns a → P.Fixed durations s a → P.Fixed durations t a

theorem Fixed.congr {s t : Insights} (h : P.Fixed durations s a)
    (he : ∀ k, k = .functionDuration ∨ k = .durationSource → t.get? a.id k = s.get? a.id k) :
    P.Fixed durations t a := by
  obtain ⟨x, hx, hs⟩ := h
  exact ⟨x, hx, hs.congr (he _ (.inl rfl)) (he _ (.inr rfl))⟩

theorem Advances.refl (insights : Insights) : P.Advances durations insights insights :=
  ⟨fun _ _ => .inl rfl, fun _ _ _ _ _ h => h⟩

theorem Advances.trans {s t u : Insights} (h : P.Advances durations s t)
    (h' : P.Advances durations t u) : P.Advances durations s u where
  renewed k hk := by
    obtain he | h' := h'.renewed k hk
    · obtain he' | ⟨σ, c, hσ, hc⟩ := h.renewed k hk
      · exact .inl (he.trans he')
      · exact .inr ⟨σ, c, he.trans hσ, hc⟩
    · exact .inr h'
  fixed o a ho hu ha hf := h'.fixed o a ho hu ha (h.fixed o a ho hu ha hf)

theorem Advances.isSome {s t : Insights} (h : P.Advances durations s t) (hk : P.Has k)
    (hs : (s.callArgs? k).isSome) : (t.callArgs? k).isSome := by
  obtain he | ⟨σ, c, hσ, -⟩ := h.renewed k hk
  · rwa [he]
  · exact Option.isSome_of_mem hσ

theorem advances_of_spares (P : Program) (durations : Durations) {T : NodeId → Key → Prop}
    (h : Spares T s t) (hT : ∀ i k, T i k → k = .paths ∨ k = .analyzedArgs) :
    P.Advances durations s.insights t.insights := by
  have hkey : ∀ i k, k ≠ .paths → k ≠ .analyzedArgs → t.insights.get? i k = s.insights.get? i k :=
    fun i k hp ha => h i k fun hik => (hT i k hik).elim hp ha
  refine ⟨fun k _ => .inl (Insights.callArgs?_congr (hkey _ _ (by decide) (by decide))),
    fun o a _ _ _ hf => hf.congr fun k hk => ?_⟩
  obtain rfl | rfl := hk <;> exact hkey _ _ (by decide) (by decide)

def configured (P : Program) (durations : Durations) (settings : Settings) : Setup :=
  { P.setup durations with settings }

/-- A state in which all functions but the stale ones can be trusted. -/
structure Stands (P : Program) (durations : Durations) (limit : Option Int) (stale : List Function)
    (s : State) : Prop where
  clock : s.clock.limit? = some limit
  trusted : P.Trusted durations stale s.insights

/-- How a step stops. The functions that were under analysis then may have become stale; the ticks are
used up unless the step is blocked. -/
structure Halts (P : Program) (durations : Durations) (limit : Option Int) (stale stack : List Function)
    (blocked : Prop) (e : Fault) (t : State) : Prop where
  state : ∃ opened, t.stack = opened ++ stack ∧ P.Trusted durations (opened ++ stale) t.insights
  cause : Spent limit e ∨ blocked

variable {settings : Settings} {stack : List Function} {p q : Prop} {e : Fault}

theorem Halts.mono (h : P.Halts durations limit stale stack p e t) (hpq : p → q) :
    P.Halts durations limit stale stack q e t :=
  ⟨h.state, h.cause.imp_right hpq⟩

theorem Stands.halts (h : P.Stands durations limit stale s) (hs : t.stack = s.stack)
    (hi : t.insights = s.insights) (hc : Spent limit e ∨ p) :
    P.Halts durations limit stale s.stack p e t :=
  ⟨⟨[], hs, hi ▸ h.trusted⟩, hc⟩

theorem Stands.events (h : P.Stands durations limit stale s) (es : Array Event) :
    P.Stands durations limit stale { s with events := es } :=
  ⟨h.clock, h.trusted⟩

theorem timed_cases {α : Type} {x : Timed α} {y : α} (hx : x.Pays y) (hc : s.clock.limit? = some limit) :
    (∃ clock : Clock, clock.limit? = some limit ∧ Run.timed x s = (.ok y, { s with clock })) ∨
      ∃ clock e, Spent limit e ∧ Run.timed x s = (.error e, { s with clock }) := by
  have hrun : Run.timed x s = ((x s.clock).1, { s with clock := (x s.clock).2 }) := rfl
  rw [hrun]
  cases hclock : s.clock with
  | unbounded m =>
    rw [hclock] at hc
    obtain ⟨k, hk⟩ := hx.unbounded m
    rw [hk]
    exact .inl ⟨.unbounded k, hc, rfl⟩
  | loose v =>
    rw [hclock] at hc
    cases hc
  | metered l m =>
    rw [hclock] at hc
    obtain ⟨k, hk | hk⟩ := hx.metered l m
    · rw [hk]
      exact .inl ⟨.metered l k, hc, rfl⟩
    · rw [hk]
      exact .inr ⟨_, _, ⟨l, k, (Option.some.inj hc).symm, rfl⟩, rfl⟩

theorem Stands.tick (h : P.Stands durations limit stale s) :
    Run.Ends (Run.tick 1) s (fun _ t => t.stack = s.stack ∧ t.insights = s.insights ∧
      P.Stands durations limit stale t) (P.Halts durations limit stale s.stack p) := by
  change Run.Ends (Run.timed (Timed.tick 1)) s _ _
  obtain ⟨clock, hc, hrun⟩ | ⟨clock, e, he, hrun⟩ := timed_cases (Timed.pays_tick Nat.one_pos) h.clock
  · exact Run.ends_of_ok hrun ⟨rfl, rfl, hc, h.trusted⟩
  · exact Run.ends_of_error hrun (h.halts rfl rfl (.inl he))

theorem Has.all_paths (hf : P.Has f) : (P.paths f).all (Path.has .pathDuration) = false := by
  have hbare : ∀ p ∈ P.paths f, p.has .pathDuration = false := by
    intro p hp
    rw [Path.has, (hf.path_in p hp).bare]
    rfl
  cases hps : P.paths f with
  | nil => exact absurd hps hf.paths_ne_nil
  | cons p ps =>
    rw [List.all_cons, hbare p (hps ▸ List.mem_cons_self), Bool.false_and]

theorem Stands.pathsOf (h : P.Stands durations limit stale s) (hf : P.Has f) :
    Run.Ends (Run.pathsOf P.forest f) s (fun ps t => t.stack = s.stack ∧
      P.Stands durations limit stale t ∧ t.insights.paths? f = some ps ∧
      Spares (fun i k => i = f.id ∧ k = .paths) s t) (P.Halts durations limit stale s.stack p) := by
  cases hp : s.insights.paths? f with
  | some ps => exact Run.ends_of_ok (Run.pathsOf_of_some _ hp) ⟨rfl, h, hp, frame_spares.refl s⟩
  | none =>
    rw [Run.pathsOf]
    refine Run.ends_bind_of_ok (Run.insights_apply s) ?_
    simp only [hp]
    obtain ⟨clock, hc, hrun⟩ | ⟨clock, e, he, hrun⟩ := timed_cases hf.pays h.clock
    · refine Run.ends_bind_of_ok hrun (Run.ends_bind_of_ok (Run.record_apply _ _) ?_)
      obtain ⟨es, hset⟩ := Run.set_apply f.id .paths (.note (.paths (P.paths f)))
        { s with clock, events := s.events.push (.logged (Path.builtMessage f (P.paths f))) }
      have hst : Spares (fun i k => i = f.id ∧ k = .paths) s
          (s.put f.id .paths (.note (.paths (P.paths f)))) :=
        (tolerates_spares ⟨rfl, rfl⟩).put s _
      have hps := s.paths?_put f (P.paths f)
      have hfresh : P.paths f = (P.paths f).zipWith Path.timed ((P.paths f).map fun _ => none) :=
        (Path.zipWith_timed_none fun p hp => (hf.path_in p hp).bare).symm
      refine Run.ends_bind_of_ok hset (Run.ends_pure ⟨rfl, ⟨hc, ?_⟩, hps, hst⟩)
      refine h.trusted.timed hf hst (hps.trans (congrArg some hfresh)) (List.length_map _) ?_
      -- New paths have no durations yet, so nothing is said about them.
      intro _ _ τ ps' _ hps' hall
      cases hps.symm.trans hps'
      exact absurd hall (Bool.eq_false_iff.mp hf.all_paths)
    · exact Run.ends_of_error (Run.bind_of_error hrun _) (h.halts rfl rfl (.inl he))

theorem Stands.noteSignature (h : P.Stands durations limit stale s) (hf : P.Has f) :
    Run.Ends (Analysis.noteSignature f) s (fun _ t => t.stack = s.stack ∧
        P.Stands durations limit (f :: stale) t ∧
        (∃ τ, Signature.of (s.insights.effectiveArgs f) = .ok τ ∧
          t.insights.analyzedArgs? f = some τ) ∧
        Spares (fun i k => i = f.id ∧ k = .analyzedArgs) s t)
      (P.Halts durations limit stale s.stack
        (¬∃ τ, Signature.of (s.insights.effectiveArgs f) = .ok τ)) := by
  rcases hτ : Signature.of (s.insights.effectiveArgs f) with e | τ
  · refine Run.ends_of_error (Run.bind_of_error (congrArg (·, s) hτ) _) ?_
    refine h.halts rfl rfl (.inr ?_)
    rintro ⟨τ, hτ'⟩
    cases hτ'
  · obtain ⟨es, hnote⟩ := noteSignature_apply hτ
    have hst : Spares (fun i k => i = f.id ∧ k = .analyzedArgs) s
        (s.put f.id .analyzedArgs (.note (.signature τ))) := (tolerates_spares ⟨rfl, rfl⟩).put s _
    exact Run.ends_of_ok hnote ⟨rfl, ⟨h.clock, h.trusted.noted hf hst⟩,
      ⟨τ, rfl, s.analyzedArgs?_put f τ⟩, hst⟩

theorem Stands.begin (h : P.Stands durations limit stale s) (hf : P.Has f)
    (hidle : s.stack.any (·.id = f.id) = false) :
    Run.Ends (Analysis.begin (P.configured durations settings) f) s
      (fun b t => b = true ∧ t.stack = s.stack ∧
        P.Stands durations limit (f :: stale) t ∧ (t.insights.paths? f).isSome ∧
        (∃ τ, Signature.of (s.insights.effectiveArgs f) = .ok τ ∧
          t.insights.analyzedArgs? f = some τ) ∧
        Spares (fun i k => i = f.id ∧ (k = .paths ∨ k = .analyzedArgs)) s t)
      (P.Halts durations limit stale s.stack
        (¬∃ τ, Signature.of (s.insights.effectiveArgs f) = .ok τ)) := by
  refine Run.ends_bind_of_ok (Run.record_apply _ s) ?_
  refine Run.ends_bind_of_ok (Run.isActive_apply f _) ?_
  rw [show List.any _ _ = false from hidle]
  refine Run.ends_bind ((h.events _).pathsOf hf) fun ps t ht => ?_
  obtain ⟨hstack, ht, hps, hst⟩ := ht
  have hargs : t.insights.effectiveArgs f = s.insights.effectiveArgs f :=
    Insights.effectiveArgs_congr (hst _ _ fun hT => absurd hT.2 (by decide))
  simp only [Bool.false_eq_true, if_false]
  refine Run.ends_bind_of_ok (Run.record_apply _ t) ?_
  refine Run.ends_bind (((ht.events _).noteSignature hf).mono (fun _ _ h => h) fun e u hu => ?_)
    fun _ u hu => ?_
  · rw [← hargs, ← show t.stack = s.stack from hstack]
    exact hu
  · obtain ⟨hstack', hu, hτ, htu⟩ := hu
    refine Run.ends_pure ⟨rfl, hstack'.trans hstack, hu, ?_, hargs ▸ hτ, ?_⟩
    · rw [Insights.paths?_congr (htu _ _ fun hT => absurd hT.2 (by decide))]
      exact Option.isSome_of_mem hps
    · exact frame_spares.trans (hst.mono fun _ _ h => ⟨h.1, .inl h.2⟩)
        (htu.mono fun _ _ h => ⟨h.1, .inr h.2⟩)

/-- Where the called function has its arguments and its paths their durations, the call is given its
price. -/
theorem Regular.settle (h : P.Regular s.insights) (ha : a ∈ P.module.walk) (hg : P.Has g)
    {σ : List Artifact} {ps : List Path} (hσ : s.insights.callArgs? g = some σ)
    (hps : s.insights.paths? g = some ps) :
    Run.Ends (settle (P.configured durations settings) a g) s
      (fun _ t => ∃ x, price durations g σ ps = .ok x ∧ Writes s t a x)
      (fun _ t => (∃ e, price durations g σ ps = .error e) ∧ t.stack = s.stack ∧
        t.insights = s.insights) := by
  obtain ⟨_, hshown, -⟩ := h.shown a ha
  have heff : s.insights.effectiveArgs g = σ := by
    rw [Insights.effectiveArgs, hσ, Option.getD_some]
  have hest : ∃ es, estimate P.forest a g s = (expected σ ps, { s with events := es }) := by
    rw [estimate, Run.bind_of_ok (Run.insights_apply s), heff, expected]
    split
    · refine ⟨s.events, ?_⟩
      rw [Run.bind_of_ok (Run.pathsOf_of_some _ hps)]
      cases Path.candidates σ ps <;> rfl
    · exact ⟨_, rfl⟩
  obtain ⟨es, hest⟩ := hest
  have hmeasured := measuredDuration_of_bare durations (h.bare hg)
  have hprice : price durations g σ ps = expected σ ps >>= _ := rfl
  cases hmean : expected σ ps with
  | error e =>
    rw [hmean] at hest hprice
    exact Run.ends_of_error (Run.bind_of_error hest _) ⟨⟨e, hprice⟩, rfl, rfl⟩
  | ok mean =>
    rw [hmean] at hest hprice
    refine Run.ends_bind_of_ok hest (Run.ends_bind_of_ok (Run.insights_apply _) ?_)
    have write : ∀ {y : Run Unit} {t : State} {x : Cost}, price durations g σ ps = .ok x →
        y { s with events := es } = (.ok (), t) → Writes { s with events := es } t a x →
        Run.Ends y { s with events := es }
          (fun _ t => ∃ x, price durations g σ ps = .ok x ∧ Writes s t a x)
          (fun _ t => (∃ e, price durations g σ ps = .error e) ∧ t.stack = s.stack ∧
            t.insights = s.insights) :=
      fun hx hy hw => Run.ends_of_ok hy ⟨_, hx, hw.stack, hw.clock, hw.spares, hw.shows⟩
    cases hv : durations.measured? g with
    | some v =>
      cases hn : v.toInt with
      | error e =>
        simp only [hv, hn] at hmeasured hprice
        exact Run.ends_of_error (Run.bind_of_error (congrArg (·, _) hmeasured) _)
          ⟨⟨e, hprice⟩, rfl, rfl⟩
      | ok n =>
        simp only [hv, hn] at hmeasured hprice
        refine Run.ends_bind_of_ok (congrArg (·, _) hmeasured) ?_
        obtain ⟨t, hs, hw⟩ := storeDuration_writes (s := { s with events := es }) hshown n "measured"
        exact write hprice hs hw
    | none =>
      simp only [hv] at hmeasured hprice
      refine Run.ends_bind_of_ok (congrArg (·, _) hmeasured) ?_
      cases mean with
      | some n =>
        obtain ⟨t, hs, hw⟩ := storeDuration_writes (s := { s with events := es }) hshown n "paths"
        exact write hprice hs hw
      | none =>
        obtain ⟨t, hs, hw⟩ := dropDerived_writes (s := { s with events := es }) hshown
        exact write hprice hs hw

theorem Regular.pathDurations (h : P.Regular s.insights) (hf : P.Has f) {c : Artifact → Cost}
    (hc : ∀ call ∈ body f, Shows s.insights call (c call)) (hp : (s.insights.paths? f).isSome) :
    ∃ es, pathDurations f s =
      (.ok (), { s.put f.id .paths (.note (.paths (P.timed f c))) with events := es }) := by
  obtain ⟨ps, hps⟩ := Option.isSome_iff_exists.mp hp
  obtain ⟨old, ho, rfl⟩ := h.paths f hf ps hps
  let known (p : Path) : List Int := p.calls.filterMap fun call => (c call).map Prod.fst
  have hread : ∀ q ∈ (P.paths f).zipWith Path.timed old, knownDurations s.insights q = .ok (known q) := by
    intro q hq
    obtain ⟨p, hp, d, rfl⟩ := Path.exists_timed_of_mem hq
    refine knownDurations_eq fun call h => ?_
    rw [Path.calls_timed] at h
    exact hc call (mem_body_of_mem_calls (hf.path_in p hp) h)
  have hmap : ((P.paths f).zipWith Path.timed old).map known = (P.paths f).map known :=
    Path.map_zipWith_timed known (fun p d => by simp only [known, Path.calls_timed]) _ ho
  obtain ⟨es, hrun⟩ := pathDurations_apply hps (mapM_eq_ok hread)
  rw [hmap, Path.updated_eq _ ho (List.length_map _)] at hrun
  exact ⟨es, hrun⟩

end Program

end CallTime

import CallTime.Proofs.Correctness
import CallTime.Proofs.Trust

/-!
What it comes to when a function is entered.

Main statement: under any honest policy a function that is entered is charged for the arguments it has,
and everything but the stale functions can be trusted afterwards. It stops only where the ticks are used
up or there are no such charges, and then only the functions under analysis have become stale.
-/

namespace CallTime

open Analysis

namespace Program

open Relation
open Artifact (walkFrom)

variable {P : Program} {durations : Durations} {settings : Settings} {choose : Policy}
  {enter : Function → Run Unit} {f g k o : Function} {a : Artifact} {s t : State} {limit : Option Int}
  {stale stack : List Function} {ρ : Option (List Artifact)} {as : List Artifact}

/-- The function was charged for its arguments, and so were those it leads to. -/
structure Served (P : Program) (durations : Durations) (g : Function) (s t : State) : Prop where
  charges : ∃ c, P.Charges durations g (s.insights.callArgs? g) c ∧
    (∀ a ∈ body g, Shows t.insights a (c a)) ∧ t.insights.paths? g = some (P.timed g c)
  given : ∀ k, TransGen P.forest.Calls g k → (t.insights.callArgs? k).isSome
  advances : P.Advances durations s.insights t.insights

def Serves (P : Program) (durations : Durations) (limit : Option Int) (stale stack : List Function)
    (enter : Function → Run Unit) (g : Function) : Prop :=
  ∀ s, s.stack = stack → P.Stands durations limit stale s →
    Run.Ends (enter g) s
      (fun _ t => t.stack = stack ∧ P.Stands durations limit stale t ∧ P.Served durations g s t)
      (P.Halts durations limit stale stack
        (¬∃ c, P.Charges durations g (s.insights.callArgs? g) c))

/-- A called function that may be entered, or left out if it is up to date. -/
structure Ready (P : Program) (durations : Durations) (limit : Option Int) (stale stack : List Function)
    (enter : Function → Run Unit) (g : Function) : Prop where
  idle : stack.any (·.id = g.id) = false
  fresh : g ∉ stale
  serves : P.Serves durations limit stale stack enter g

theorem Charged.charges (hg : P.forest.target? a = some g) {σ : List Artifact}
    (hσ : argumentsUnder P.forest ρ a = .ok σ) (h : ∃ x, P.Charged durations ρ a x) :
    ∃ c, P.Charges durations g (some σ) c := by
  obtain ⟨x, hx⟩ := h
  obtain ⟨σ', c, hσ', hc, -⟩ := (charged_of_some hg).mp hx
  cases hσ.symm.trans hσ'
  exact ⟨c, hc⟩

/-- After the approach the called function has the arguments of the call. If it is left out, then it is
charged for them already. -/
theorem Stands.approachBy (hP : P.Acyclic) (hd : P.Discerning) (hon : Honest choose)
    (h : P.Stands durations limit stale s) (hidle : s.stack.any (·.id = g.id) = false)
    (hfresh : g ∉ stale) (ho : P.Has o) (ha : o.Owns a) (hg : P.forest.target? a = some g) :
    Run.Ends (Analysis.approachBy choose P.forest a g) s
      (fun b t => t.stack = s.stack ∧ P.Stands durations limit stale t ∧
        Spares (fun i k => i = g.id ∧ k = .callArgs) s t ∧
        ∃ σ, argumentsUnder P.forest (s.insights.callArgs? o) a = .ok σ ∧
          t.insights.callArgs? g = some σ ∧
          (b = false → ∃ c, P.Charges durations g (some σ) c ∧
            t.insights.paths? g = some (P.timed g c) ∧
            ∀ k, TransGen P.forest.Calls g k → (t.insights.callArgs? k).isSome))
      (P.Halts durations limit stale s.stack
        (¬∃ x, P.Charged durations (s.insights.callArgs? o) a x)) := by
  have hgm := mem_of_target? hg
  have hresolve : resolveArguments P.forest s.insights a =
      argumentsUnder P.forest (s.insights.callArgs? o) a := by
    rw [resolveArguments_eq_under, ho.enclosing? ha, Option.bind_some]
  rcases hσ : argumentsUnder P.forest (s.insights.callArgs? o) a with e | σ
  · refine Run.ends_of_error (Run.bind_of_error (propagate_of_error (hresolve.trans hσ) g) _) ?_
    refine h.halts rfl rfl (.inr ?_)
    rintro ⟨x, hx⟩
    obtain ⟨σ, _, hσ', -⟩ := (charged_of_some hg).mp hx
    cases hσ.symm.trans hσ'
  · obtain ⟨es, hpropagate⟩ := propagate_of_ok (hresolve.trans hσ) g
    have hst : Spares (fun i k => i = g.id ∧ k = .callArgs) s
        (s.put g.id .callArgs (.note (.arguments σ))) := (tolerates_spares ⟨rfl, rfl⟩).put s _
    have hargs := s.callArgs?_put g σ
    have hcomes : P.Comes g (some σ) := .call (h.trusted.regular.comes ho) ha hg hσ
    have ht := h.trusted.propagated (has_of_mem hgm) hst hargs hcomes
    have heff : (s.put g.id .callArgs (.note (.arguments σ))).insights.effectiveArgs g = σ := by
      rw [Insights.effectiveArgs, hargs, Option.getD_some]
    refine Run.ends_bind_of_ok hpropagate ?_
    generalize hu : ({ s.put g.id .callArgs (.note (.arguments σ)) with events := es } : State) = u
    have hui : u.insights = (s.put g.id .callArgs (.note (.arguments σ))).insights := hu ▸ rfl
    have hus : u.stack = s.stack := hu ▸ rfl
    have huc : u.clock = s.clock := hu ▸ rfl
    have hunmarked : u.insights.recursive? a.id = none :=
      hui ▸ ht.regular.unmarked a (mem_module_of_mem_walk ho (mem_body ha.mem_walkFrom))
    have hstands : P.Stands durations limit stale u := ⟨huc ▸ h.clock, hui ▸ ht⟩
    obtain ⟨r, es', hchoose⟩ := hon.quiet a g u
    cases r with
    | error e =>
      refine Run.ends_of_error (Run.bind_of_error hchoose _) ?_
      refine hus ▸ hstands.halts rfl rfl (.inr fun hcharged => ?_)
      have hsig := hon.fails a g u hunmarked (hus ▸ hidle) e _ hchoose
      obtain ⟨c, hc⟩ := Charged.charges hg hσ hcharged
      obtain ⟨τ, hτ⟩ := (charges_iff.mp hc).1.own
      rw [hui, heff, show σ = (some σ).getD g.parameters from rfl, hτ] at hsig
      cases hsig
    | ok b =>
      refine Run.ends_bind_of_ok hchoose ?_
      cases b with
      | true =>
        exact Run.ends_pure ⟨hus, hstands.events es', hui ▸ hst, σ, rfl, hui ▸ hargs,
          fun h => absurd h.symm Bool.false_ne_true⟩
      | false =>
        -- A function is left out only if it is up to date, and then it can be trusted.
        obtain ⟨ps, τ, τ', hps, hall, hτ, hτ', hagree⟩ :=
          upToDate_eq_true (hon.leaves a g u hunmarked (hus ▸ hidle) _ hchoose)
        obtain ⟨ρ', c, hcomes', hρ', hc, rfl, hgiven⟩ :=
          hstands.trusted.valid g hgm hfresh τ ps hτ hps hall
        rw [hui, heff] at hτ'
        have hcharges := hc.transfer hP hd hcomes' hcomes hρ' hτ' hagree
        simp only [Bool.false_eq_true, if_false]
        refine Run.ends_bind_of_ok (Run.pathsOf_of_some (s := { u with events := es' }) _ hps) ?_
        exact Run.ends_pure ⟨hus, hstands.events es', hui ▸ hst, σ, rfl, hui ▸ hargs,
          fun _ => ⟨c, hcharges, hps, hgiven⟩⟩

/-- What the visit of a node of `o` comes to, where `o` was given `ρ`. -/
structure Noted (P : Program) (durations : Durations) (ρ : Option (List Artifact)) (a : Artifact)
    (s t : State) : Prop where
  charged : ∃ x, P.Charged durations ρ a x ∧ Shows t.insights a x
  given : ∀ g, P.forest.target? a = some g → ∀ k, ReflTransGen P.forest.Calls g k →
    (t.insights.callArgs? k).isSome
  advances : P.Advances durations s.insights t.insights

theorem Stands.settle (h : P.Stands durations limit stale t) (settings : Settings) (ho : P.Has o)
    (ha : o.Owns a) (hg : P.forest.target? a = some g) (hcomes : P.Comes o ρ)
    {σ : List Artifact} {c : Artifact → Cost} (hσ : argumentsUnder P.forest ρ a = .ok σ)
    (hc : P.Charges durations g (some σ) c) (hargs : t.insights.callArgs? g = some σ)
    (hps : t.insights.paths? g = some (P.timed g c))
    (hgiven : ∀ k, TransGen P.forest.Calls g k → (t.insights.callArgs? k).isSome)
    (hadv : P.Advances durations s.insights t.insights) :
    Run.Ends (Analysis.settle (P.configured durations settings) a g) t
      (fun _ u => u.stack = t.stack ∧ P.Stands durations limit stale u ∧ P.Noted durations ρ a s u)
      (P.Halts durations limit stale t.stack (¬∃ x, P.Charged durations ρ a x)) := by
  have ham : a ∈ P.module.walk := mem_module_of_mem_walk ho (mem_body ha.mem_walkFrom)
  refine (h.trusted.regular.settle ham (has_of_target? hg) hargs hps).mono
    (fun _ u hu => ?_) fun e u hu => ?_
  · obtain ⟨x, hx, hw⟩ := hu
    have hcharged : P.Charged durations ρ a x := (charged_of_some hg).mpr ⟨σ, c, hσ, hc, hx⟩
    have hkept : ∀ k : Function, u.insights.callArgs? k = t.insights.callArgs? k := fun k =>
      Insights.callArgs?_congr (hw.spares _ _ fun hT => absurd hT.2 (by decide))
    refine ⟨hw.stack, ⟨hw.clock ▸ h.clock, h.trusted.stored ham hw fun hn => ?_⟩,
      ⟨x, hcharged, hw.shows⟩, fun g' hg' k hk => ?_, hadv.trans ⟨fun k _ => .inl (hkept k), ?_⟩⟩
    · cases hg.symm.trans hn
    · cases hg.symm.trans hg'
      rw [hkept]
      obtain rfl | hk := (reflTransGen_iff_eq_or_transGen.mp hk)
      · exact Option.isSome_of_mem hargs
      · exact hgiven k hk
    · intro o' b ho' huntargeted hb hfixed
      by_cases hid : b.id = a.id
      · -- Nothing reaches a function that no call resolves to, so the new charge is the fixed one.
        obtain rfl := eq_of_id_eq (mem_module_of_mem_walk ho' (mem_body hb.mem_walkFrom)) ham hid
        obtain rfl : o' = o := Option.some.inj ((ho'.enclosing? hb).symm.trans (ho.enclosing? ha))
        cases hcomes with
        | root => exact ⟨x, hcharged, hw.shows⟩
        | call hc' ha' hg' _ =>
          exact absurd hg' (huntargeted _ (mem_module_of_mem_walk hc'.has (mem_body ha'.mem_walkFrom)))
      · exact hfixed.congr fun k _ => hw.spares _ _ fun hT => hid hT.1
  · obtain ⟨⟨e', he'⟩, hstack, hins⟩ := hu
    refine h.halts hstack hins (.inr ?_)
    rintro ⟨x, hx⟩
    obtain ⟨σ', c', hσ', hc', hprice⟩ := (charged_of_some hg).mp hx
    cases hσ.symm.trans hσ'
    rw [← (has_of_target? hg).timed_congr (hc.unique c' hc'), he'] at hprice
    cases hprice

theorem Stands.call (hP : P.Acyclic) (hd : P.Discerning) (hon : Honest choose)
    (h : P.Stands durations limit stale s) (hs : s.stack = stack)
    (hready : P.Ready durations limit stale stack enter g)
    (hsp : Run.Respects (Spares (P.forest.Touches [g.artifact])) (enter g))
    (ho : P.Has o) (ha : o.Owns a) (hg : P.forest.target? a = some g) :
    Run.Ends (visitBy choose (P.configured durations settings) enter a .callDuration) s
      (fun _ t => t.stack = stack ∧ P.Stands durations limit stale t ∧
        P.Noted durations (s.insights.callArgs? o) a s t)
      (P.Halts durations limit stale stack
        (¬∃ x, P.Charged durations (s.insights.callArgs? o) a x)) := by
  subst hs
  have hgh := has_of_target? hg
  have hcomes := h.trusted.regular.comes ho
  have hcallee : Pass.callDuration.callee? (P.configured durations settings).forest a = some g := hg
  rw [visitBy, hcallee]
  refine Run.ends_bind (h.approachBy hP hd hon hready.idle hready.fresh ho ha hg) fun b t ht => ?_
  obtain ⟨hstack, ht, hst, σ, hσ, hargs, hskipped⟩ := ht
  have hother : ∀ k, P.Has k → k ≠ g → t.insights.callArgs? k = s.insights.callArgs? k :=
    fun k hk hne => Insights.callArgs?_congr
      (get?_of_spares hst (.inl fun hid => hne (eq_of_fid_eq hk hgh hid)))
  have hdurations : ∀ b k, k = .functionDuration ∨ k = .durationSource →
      t.insights.get? b k = s.insights.get? b k := by
    rintro b k (rfl | rfl) <;> exact get?_of_spares hst (.inr (by decide))
  -- The arguments are handed on before it is known that there are charges for them.
  have advances : ∀ {u : State} {c : Artifact → Cost}, P.Advances durations t.insights u.insights →
      P.Charges durations g (some σ) c → u.insights.callArgs? g = some σ →
      P.Advances durations s.insights u.insights := by
    intro u c hadv hc hu
    refine ⟨fun k hk => ?_, fun o' b ho' hut hb hfix =>
      hadv.fixed o' b ho' hut hb (hfix.congr fun k => hdurations b.id k)⟩
    by_cases hkg : k = g
    · exact hkg ▸ .inr ⟨σ, c, hu, hc⟩
    · exact (hadv.renewed k hk).imp_left fun he => he.trans (hother k hk hkg)
  cases b with
  | false =>
    obtain ⟨c, hc, hps, hgiven⟩ := hskipped rfl
    have hend := ht.settle settings ho ha hg hcomes hσ hc hargs hps hgiven
      (advances (.refl _) hc hargs)
    rw [hstack] at hend
    exact hend
  | true =>
    refine Run.ends_bind (((hready.serves t hstack ht).and_respects hsp).mono (fun _ _ h => h)
      fun e u hu => hu.mono ?_) fun _ u hu => ?_
    · rw [hargs]
      exact fun hn hcharged => hn (Charged.charges hg hσ hcharged)
    · obtain ⟨⟨hstack', hu, hserved⟩, htu⟩ := hu
      obtain ⟨c, hc, -, hps⟩ := hserved.charges
      rw [hargs] at hc
      have hargs' : u.insights.callArgs? g = some σ := by
        rw [← hargs]
        refine Insights.callArgs?_congr (htu _ _ ?_)
        exact hP.not_touches_others (mem_of_target? hg) (fun b hb => hb) g.artifact.mem_walk_self
          (.inl rfl)
      have hend := hu.settle settings ho ha hg hcomes hσ hc hargs' hps hserved.given
        (advances hserved.advances hc hargs')
      rw [hstack'] at hend
      exact hend

theorem Acyclic.markRecursive (hP : P.Acyclic) (ho : P.Has o) (ha : o.Owns a) (s : State) :
    Analysis.markRecursive (P.configured durations settings) a s = (.ok (), s) := by
  have hflag : Detector.selfCall.flags P.forest s.insights a = .ok false := by
    simp only [Detector.selfCall]
    cases hg : P.forest.target? a with
    | none => rfl
    | some g =>
      have hne : o.id ≠ g.id := by
        intro hid
        obtain rfl := eq_of_fid_eq ho (has_of_target? hg) hid
        exact hP.not_below_of_calls ho (calls_of_mem (mem_body ha.mem_walkFrom) hg)
          (Forest.below_self _ o)
      rw [ho.enclosing? ha]
      simp [hne]
  rw [Analysis.markRecursive, Run.bind_of_ok (Run.insights_apply s)]
  exact Run.bind_of_ok (congrArg (·, s) hflag) _

theorem visitBy_recursiveCall (choose : Policy) (setup : Setup) (enter : Function → Run Unit)
    (a : Artifact) : visitBy choose setup enter a .recursiveCall =
      if a.isCall then Analysis.markRecursive setup a else pure () := by
  cases a <;> rfl

theorem visitBy_of_target?_eq_none (durations : Durations) (settings : Settings) (choose : Policy)
    (enter : Function → Run Unit) (hg : P.forest.target? a = none) (s : State) :
    ∃ es, visitBy choose (P.configured durations settings) enter a .callDuration s =
      (.ok (), { s with events := es }) := by
  have hcallee : Pass.callDuration.callee? (P.configured durations settings).forest a = none := hg
  rw [visitBy, hcallee]
  cases a with
  | call info name arguments target =>
    simp only [visit, callDuration]
    rw [show (P.configured durations settings).forest.target? (.call info name arguments target) = none
      from hg]
    exact ⟨_, rfl⟩
  | _ => exact ⟨s.events, rfl⟩

theorem Stands.node (settings : Settings) (hP : P.Acyclic) (hd : P.Discerning) (hon : Honest choose)
    (h : P.Stands durations limit stale s) (hs : s.stack = stack)
    (hready : ∀ g, P.forest.target? a = some g → P.Ready durations limit stale stack enter g)
    (hsp : ∀ g, Run.Respects (Spares (P.forest.Touches [g.artifact])) (enter g))
    (ho : P.Has o) (ha : o.Owns a) :
    Run.Ends ([Pass.recursiveCall, .callDuration].forM
        (visitBy choose (P.configured durations settings) enter a)) s
      (fun _ t => t.stack = stack ∧ P.Stands durations limit stale t ∧
        P.Noted durations (s.insights.callArgs? o) a s t)
      (P.Halts durations limit stale stack
        (¬∃ x, P.Charged durations (s.insights.callArgs? o) a x)) := by
  have hmark : visitBy choose (P.configured durations settings) enter a .recursiveCall s =
      (.ok (), s) := by
    rw [visitBy_recursiveCall]
    split
    · exact hP.markRecursive ho ha s
    · rfl
  refine Run.ends_bind_of_ok hmark ?_
  cases hg : P.forest.target? a with
  | some g =>
    exact Run.ends_bind (h.call hP hd hon hs (hready g hg) (hsp g) ho ha hg) fun _ t ht =>
      Run.ends_pure ht
  | none =>
    obtain ⟨es, hvisit⟩ := visitBy_of_target?_eq_none durations settings choose enter hg s
    obtain ⟨c, hc, hn⟩ := h.trusted.regular.shown a
      (mem_module_of_mem_walk ho (mem_body ha.mem_walkFrom))
    obtain rfl := hn hg
    refine Run.ends_bind_of_ok hvisit (Run.ends_pure ⟨hs, h.events es, ⟨none, ?_, hc⟩, ?_, .refl _⟩)
    · exact (charged_of_none hg).mpr rfl
    · intro g hg'
      cases hg.symm.trans hg'

/-- There are charges for the calls below the nodes, where `o` was given `ρ`, and the functions among
them have values for their parameters. -/
structure Passable (P : Program) (durations : Durations) (o : Function) (ρ : Option (List Artifact))
    (as : List Artifact) : Prop where
  nested : ∀ k : Function, k.artifact ∈ walkFrom as → ∃ τ, Signature.of k.parameters = .ok τ
  charged : ∀ a ∈ walkFrom as, ∃ x, P.Charged durations (P.standing o ρ a) a x

/-- The nodes of `o` were visited, where `o` was given `ρ`. -/
structure Passed (P : Program) (durations : Durations) (o : Function) (ρ : Option (List Artifact))
    (as : List Artifact) (s t : State) : Prop where
  nested : ∀ k : Function, k.artifact ∈ walkFrom as → ∃ τ, Signature.of k.parameters = .ok τ
  shown : ∀ a ∈ walkFrom as, ∃ x, P.Charged durations (P.standing o ρ a) a x ∧ Shows t.insights a x
  given : ∀ k, P.forest.CalledFrom as k → (t.insights.callArgs? k).isSome
  advances : P.Advances durations s.insights t.insights

theorem Passable.mono {bs : List Artifact} (h : P.Passable durations o ρ as)
    (hs : ∀ a ∈ walkFrom bs, a ∈ walkFrom as) : P.Passable durations o ρ bs :=
  ⟨fun k hk => h.nested k (hs _ hk), fun a ha => h.charged a (hs a ha)⟩

theorem Charges.passable {c : Artifact → Cost} (h : P.Charges durations f ρ c) :
    P.Passable durations f ρ f.artifact.children := by
  obtain ⟨valued, charged⟩ := charges_iff.mp h
  exact ⟨valued.nested, fun a ha => ⟨c a, charged a ha⟩⟩

/-- What every call below a function is charged on its own makes up the charges of the function. -/
theorem exists_charges {Q : Artifact → Cost → Prop} (hvalued : Valued f ρ)
    (h : ∀ a ∈ body f, ∃ x, P.Charged durations (P.standing f ρ a) a x ∧ Q a x) :
    ∃ c, P.Charges durations f ρ c ∧ ∀ a ∈ body f, Q a (c a) := by
  have hall : ∀ a, ∃ x, a ∈ body f → P.Charged durations (P.standing f ρ a) a x ∧ Q a x := by
    intro a
    by_cases ha : a ∈ body f
    · obtain ⟨x, hx⟩ := h a ha
      exact ⟨x, fun _ => hx⟩
    · exact ⟨none, fun h => absurd h ha⟩
  choose c hc using hall
  exact ⟨c, charges_iff.mpr ⟨hvalued, fun a ha => (hc a ha).1⟩, fun a ha => (hc a ha).2⟩

theorem Passable.charges (h : P.Passable durations o ρ as) (ho : P.Has o) (hk : k.artifact ∈ walkFrom as)
    (hb : k.artifact ∈ body o) : ∃ c, P.Charges durations k none c := by
  have hsub : ∀ a ∈ body k, a ∈ walkFrom as := fun a ha =>
    Artifact.mem_walkFrom_of_mem_walk hk (mem_body ha)
  have hvalued : Valued k none := ⟨h.nested k hk, fun k' hk' => h.nested k' (hsub _ hk')⟩
  obtain ⟨c, hc, -⟩ := exists_charges (Q := fun _ _ => True) hvalued fun a ha => by
    obtain ⟨x, hx⟩ := h.charged a (hsub a ha)
    rw [ho.standing_nested hb ha, ← standing_none (f := k)] at hx
    exact ⟨x, hx, trivial⟩
  exact ⟨c, hc⟩

theorem Passed.nil (o : Function) (ρ : Option (List Artifact)) (s : State) :
    P.Passed durations o ρ [] s s := by
  have hnil (a : Artifact) : a ∉ walkFrom [] := by
    rw [walkFrom]
    exact List.not_mem_nil
  refine ⟨fun k hk => absurd hk (hnil _), fun a ha => absurd ha (hnil a), ?_, .refl _⟩
  rintro k ⟨call, hc, -⟩
  exact absurd hc (hnil call)

theorem not_mem_of_nested (ho : P.Has o) (hk : k.artifact ∈ body o) : k ∉ P.functions := by
  intro hm
  obtain ⟨F, hF, hoF⟩ := ho.top
  obtain rfl := top_unique hm hF k.artifact.mem_walk_self (walk_subset hoF (mem_body hk))
  exact not_mem_walk_of_nested ho hk hoF

theorem Regular.callArgs?_of_nested {insights : Insights} (h : P.Regular insights) (ho : P.Has o)
    (hk : k.artifact ∈ body o) : insights.callArgs? k = none := by
  cases hσ : insights.callArgs? k with
  | none => rfl
  | some σ =>
    have hkm : P.Has k := mem_module_of_mem_walk ho (mem_body hk)
    exact absurd (h.given k hkm σ hσ).mem (not_mem_of_nested ho hk)

theorem isFunction_of_nested? {root : NodeId} (h : nested? root a = none) (hne : a.id ≠ root) :
    a.isFunction = false := by
  rw [nested?, if_neg hne] at h
  cases a <;> first | rfl | cases h

theorem mem_body_of_owns (hown : ∀ b ∈ as, o.Owns b) : ∀ b ∈ walkFrom as, b ∈ body o :=
  Artifact.forall_mem_walkFrom (fun _ hb _ hc => Artifact.mem_walkFrom_children hb hc)
    fun b hb => (hown b hb).mem_walkFrom

theorem Acyclic.shows_of_spares (hP : P.Acyclic) (ho : P.Has o) (hown : ∀ b ∈ as, o.Owns b)
    (hst : Spares (P.forest.Touches as) s t) (ha : a ∈ body o) (hn : a ∉ walkFrom as) {x : Cost}
    (hx : Shows s.insights a x) : Shows t.insights a x := by
  obtain ⟨F, hF, hoF⟩ := ho.top
  have hkey : ∀ k, t.insights.get? a.id k = s.insights.get? a.id k := fun k =>
    hst _ _ (hP.not_touches_others hF (fun b hb => walk_subset hoF (mem_body (mem_body_of_owns hown b hb)))
      (walk_subset hoF (mem_body ha)) (.inr hn))
  exact hx.congr (hkey _) (hkey _)

theorem Acyclic.callArgs?_of_spares (hP : P.Acyclic) (ho : P.Has o) (has : ∀ b ∈ walkFrom as, b ∈ body o)
    (hst : Spares (P.forest.Touches as) s t) : t.insights.callArgs? o = s.insights.callArgs? o := by
  obtain ⟨F, hF, hoF⟩ := ho.top
  exact Insights.callArgs?_congr (hst _ _ (hP.not_touches_others hF
    (fun b hb => walk_subset hoF (mem_body (has b hb))) hoF (.inl rfl)))

theorem Passed.cons_function (hP : P.Acyclic) (ho : P.Has o) (hown : ∀ b ∈ g.artifact :: as, o.Owns b)
    (hnodup : (walkFrom (g.artifact :: as)).Nodup) (ht : P.Regular t.insights)
    (hnone : s.insights.callArgs? g = none) (hserved : P.Served durations g s t) {u : State}
    (hpassed : P.Passed durations o ρ as t u) (htu : Spares (P.forest.Touches as) t u) :
    P.Passed durations o ρ (g.artifact :: as) s u := by
  have hbody := mem_body_of_owns hown
  rw [Artifact.walkFrom_cons] at hnodup hbody
  have hgb : g.artifact ∈ body o := hbody _ (List.mem_append_left _ g.artifact.mem_walk_self)
  obtain ⟨c, hc, hshown, -⟩ := hserved.charges
  rw [hnone] at hc
  obtain ⟨valued, hcharged⟩ := charges_iff.mp hc
  refine ⟨fun k hk => ?_, fun a ha => ?_, ?_, hserved.advances.trans hpassed.advances⟩
  · rw [Artifact.walkFrom_cons, walk_function, List.cons_append, List.mem_cons, List.mem_append] at hk
    obtain hk | hk | hk := hk
    · obtain rfl := Function.artifact_injective hk
      exact valued.own
    · exact valued.nested k hk
    · exact hpassed.nested k hk
  · rw [Artifact.walkFrom_cons, List.mem_append] at ha
    obtain ha | ha := ha
    · have hnot : a ∉ walkFrom as := fun hm => (List.nodup_append.mp hnodup).2.2 a ha a hm rfl
      have hstays : ∀ {x}, Shows t.insights a x → Shows u.insights a x := fun hx =>
        hP.shows_of_spares ho (fun b hb => hown b (List.mem_cons_of_mem _ hb)) htu
          (hbody a (List.mem_append_left _ ha)) hnot hx
      rw [walk_function, List.mem_cons] at ha
      obtain rfl | ha := ha
      · obtain ⟨x, hx, hn⟩ := ht.shown g.artifact (mem_module_of_mem_walk ho (mem_body hgb))
        obtain rfl := hn rfl
        exact ⟨none, (charged_of_none rfl).mpr rfl, hstays hx⟩
      · refine ⟨c a, ?_, hstays (hshown a ha)⟩
        rw [ho.standing_nested hgb ha, ← P.standing_none g a]
        exact hcharged a ha
    · exact hpassed.shown a ha
  · rintro k ⟨call, hcall, k', hk', hl⟩
    rw [Artifact.walkFrom_cons, List.mem_append] at hcall
    obtain hcall | hcall := hcall
    · have hlead : TransGen P.forest.Calls g k := .head' ⟨call, hcall, hk'⟩ hl
      exact hpassed.advances.isSome (has_of_mem (mem_of_leads hlead)) (hserved.given k hlead)
    · exact hpassed.given k ⟨call, hcall, k', hk', hl⟩

theorem Passed.cons_node (hP : P.Acyclic) (ho : P.Has o) (ha : o.Owns a) (hfun : a.isFunction = false)
    (hown : ∀ b ∈ a.children ++ as, o.Owns b) (hn : a ∉ walkFrom (a.children ++ as))
    (hnoted : P.Noted durations ρ a s t) {u : State}
    (hpassed : P.Passed durations o ρ (a.children ++ as) t u)
    (htu : Spares (P.forest.Touches (a.children ++ as)) t u) :
    P.Passed durations o ρ (a :: as) s u := by
  refine ⟨fun k hk => ?_, fun b hb => ?_, ?_, hnoted.advances.trans hpassed.advances⟩
  · rw [walkFrom, List.mem_cons] at hk
    obtain rfl | hk := hk
    · cases hfun
    · exact hpassed.nested k hk
  · rw [walkFrom, List.mem_cons] at hb
    obtain rfl | hb := hb
    · obtain ⟨x, hx, hshow⟩ := hnoted.charged
      refine ⟨x, (ho.standing_owned ha ρ).symm ▸ hx, ?_⟩
      exact hP.shows_of_spares ho hown htu ha.mem_walkFrom hn hshow
    · exact hpassed.shown b hb
  · rintro k ⟨call, hcall, k', hk', hl⟩
    rw [walkFrom, List.mem_cons] at hcall
    obtain rfl | hcall := hcall
    · have hk : P.Has k := by
        obtain rfl | ⟨_, -, hc⟩ := ReflTransGen.cases_tail hl
        · exact has_of_target? hk'
        · exact has_of_mem (mem_of_calls hc)
      exact hpassed.advances.isSome hk (hnoted.given k' hk' k hl)
    · exact hpassed.given k ⟨call, hcall, k', hk', hl⟩

theorem Stands.visitFromBy (settings : Settings) (hP : P.Acyclic) (hd : P.Discerning)
    (hon : Honest choose) (root : NodeId) (as : List Artifact)
    (hsp : ∀ g, Run.Respects (Spares (P.forest.Touches [g.artifact])) (enter g)) (ho : P.Has o)
    (hroot : ∀ b ∈ walkFrom as, b.isFunction = true → b.id ≠ root) (hown : ∀ b ∈ as, o.Owns b)
    (hnodup : (walkFrom as).Nodup)
    (hready : ∀ b ∈ walkFrom as, ∀ g, P.forest.target? b = some g →
      P.Ready durations limit stale stack enter g)
    (hserves : ∀ k : Function, k.artifact ∈ walkFrom as → P.Serves durations limit stale stack enter k)
    (h : P.Stands durations limit stale s) (hs : s.stack = stack) (hρ : s.insights.callArgs? o = ρ) :
    Run.Ends (Analysis.visitFromBy choose (P.configured durations settings) enter root as) s
      (fun _ t => t.stack = stack ∧ P.Stands durations limit stale t ∧ P.Passed durations o ρ as s t)
      (P.Halts durations limit stale stack (¬P.Passable durations o ρ as)) := by
  have hvisit := spares_visitFromBy hon.quiet (P.configured durations settings) hsp root
  induction as using visitFromBy.induct root generalizing s with
  | case1 =>
    rw [Analysis.visitFromBy]
    exact Run.ends_pure ⟨hs, h, .nil o ρ s⟩
  | case2 a pending g hg ih =>
    obtain rfl := artifact_of_nested? hg
    have hbody := mem_body_of_owns hown
    have hown' : ∀ b ∈ pending, o.Owns b := fun b hb => hown b (List.mem_cons_of_mem _ hb)
    have hleft : ∀ b ∈ g.artifact.walk, b ∈ walkFrom (g.artifact :: pending) := fun b hb =>
      Artifact.walkFrom_cons g.artifact pending ▸ List.mem_append_left _ hb
    have hright : ∀ b ∈ walkFrom pending, b ∈ walkFrom (g.artifact :: pending) := fun b hb =>
      Artifact.walkFrom_cons g.artifact pending ▸ List.mem_append_right _ hb
    have hgw := hleft _ g.artifact.mem_walk_self
    have hnone := h.trusted.regular.callArgs?_of_nested ho (hbody _ hgw)
    rw [Analysis.visitFromBy, hg]
    refine Run.ends_bind (((hserves g hgw s hs h).and_respects (hsp g)).mono (fun _ _ h => h)
      fun e t ht => ht.mono fun hn hp => ?_) fun _ t ht => ?_
    · rw [hnone] at hn
      exact hn (hp.charges ho hgw (hbody _ hgw))
    · obtain ⟨⟨hstack, ht, hserved⟩, hst⟩ := ht
      have hkept := hP.callArgs?_of_spares ho (fun b hb => hbody b (hleft b hb)) hst
      have hnodup' := hnodup
      rw [Artifact.walkFrom_cons] at hnodup'
      have hrest := ih (fun b hb => hroot b (hright b hb)) hown' (List.nodup_append.mp hnodup').2.1
        (fun b hb => hready b (hright b hb)) (fun k hk => hserves k (hright _ hk)) ht hstack
        (hkept.trans hρ)
      refine (hrest.and_respects (hvisit pending)).mono (fun _ u hu => ?_)
        fun e u hu => hu.mono fun hn hp => hn (hp.mono hright)
      obtain ⟨⟨hstack', hu, hpassed⟩, htu⟩ := hu
      exact ⟨hstack', hu, hpassed.cons_function hP ho hown hnodup ht.trusted.regular hnone hserved htu⟩
  | case3 a pending hg ih =>
    have hbody := mem_body_of_owns hown
    have ha := hown a List.mem_cons_self
    have haw : a ∈ walkFrom (a :: pending) := Artifact.mem_walkFrom_of_mem List.mem_cons_self
    have hfun : a.isFunction = false :=
      Bool.eq_false_iff.mpr fun hf => absurd hf (Bool.eq_false_iff.mp
        (isFunction_of_nested? hg (hroot a haw hf)))
    have hown' : ∀ b ∈ a.children ++ pending, o.Owns b := by
      intro b hb
      obtain hb | hb := List.mem_append.mp hb
      · exact .child ha hfun hb
      · exact hown b (List.mem_cons_of_mem a hb)
    have hsub : ∀ b ∈ walkFrom (a.children ++ pending), b ∈ walkFrom (a :: pending) := fun b hb => by
      rw [walkFrom]
      exact List.mem_cons_of_mem a hb
    have hnodup' := hnodup
    rw [walkFrom, List.nodup_cons] at hnodup'
    rw [Analysis.visitFromBy, hg]
    refine Run.ends_bind (hs ▸ h.tick) fun _ t ht => ?_
    obtain ⟨hstack, hins, ht⟩ := ht
    have hnode := ht.node settings hP hd hon hstack (hready a haw) hsp ho ha
    rw [hins, hρ] at hnode
    refine Run.ends_bind ((hnode.and_respects (Run.respects_forM frame_spares fun p _ =>
      spares_visitBy hon.quiet hsp a p)).mono (fun _ _ h => h) fun e u hu => hu.mono fun hn hp => ?_)
      fun _ u hu => ?_
    · have hcharged := hp.charged a haw
      rw [ho.standing_owned ha] at hcharged
      exact hn hcharged
    · obtain ⟨⟨hstack', hu, hnoted⟩, htu⟩ := hu
      have hkept := hP.callArgs?_of_spares ho (fun b hb => hbody b
        (Artifact.mem_walkFrom_of_mem_walk haw hb)) htu
      have hrest := ih (fun b hb => hroot b (hsub b hb)) hown' hnodup'.2
        (fun b hb => hready b (hsub b hb)) (fun k hk => hserves k (hsub _ hk)) hu hstack'
        (hkept.trans ((congrArg (·.callArgs? o) hins).trans hρ))
      refine (hrest.and_respects (hvisit (a.children ++ pending))).mono (fun _ v hv => ?_)
        fun e v hv => hv.mono fun hn hp => hn (hp.mono hsub)
      obtain ⟨⟨hstack'', hv, hpassed⟩, huv⟩ := hv
      have hnoted' : P.Noted durations ρ a s u :=
        ⟨hnoted.charged, hnoted.given, hins ▸ hnoted.advances⟩
      exact ⟨hstack'', hv, hpassed.cons_node hP ho ha hfun hown' hnodup'.1 hnoted' huv⟩

theorem Passed.charges (h : P.Passed durations f ρ f.artifact.children s t) {τ : Signature}
    (hτ : Signature.of (ρ.getD f.parameters) = .ok τ) :
    ∃ c, P.Charges durations f ρ c ∧ ∀ a ∈ body f, Shows t.insights a (c a) :=
  exists_charges ⟨⟨τ, hτ⟩, h.nested⟩ h.shown

theorem Stands.pathDurations (h : P.Stands durations limit (f :: stale) t) (hf : P.Has f)
    (hcomes : P.Comes f ρ) {τ : Signature} (hτ : Signature.of (ρ.getD f.parameters) = .ok τ)
    (hana : t.insights.analyzedArgs? f = some τ) (hps : (t.insights.paths? f).isSome)
    {c : Artifact → Cost} (hc : P.Charges durations f ρ c)
    (hshown : ∀ a ∈ body f, Shows t.insights a (c a))
    (hgiven : ∀ k, TransGen P.forest.Calls f k → (t.insights.callArgs? k).isSome) :
    ∃ u, Analysis.pathDurations f t = (.ok (), u) ∧ u.stack = t.stack ∧
      P.Stands durations limit stale u ∧ u.insights.paths? f = some (P.timed f c) ∧
      Spares (fun i k => i = f.id ∧ k = .paths) t u := by
  obtain ⟨es, hrun⟩ := h.trusted.regular.pathDurations hf hshown hps
  have hst : Spares (fun i k => i = f.id ∧ k = .paths) t
      (t.put f.id .paths (.note (.paths (P.timed f c)))) := (tolerates_spares ⟨rfl, rfl⟩).put t _
  have hpaths := t.paths?_put f (P.timed f c)
  have hkey : ∀ k, k ≠ .paths → ∀ i, (t.put f.id .paths (.note (.paths (P.timed f c)))).insights.get? i k =
      t.insights.get? i k := fun k hk i => get?_of_spares hst (.inr hk)
  refine ⟨_, hrun, rfl, ⟨h.clock, ?_⟩, hpaths, hst⟩
  refine (h.trusted.timed hf hst hpaths ((Path.length_totals _).trans (List.length_map _))
    fun _ hn => absurd List.mem_cons_self hn).closed fun _ τ' ps' hτ' hps' _ => ?_
  rw [Insights.analyzedArgs?_congr (hkey _ (by decide) _), hana] at hτ'
  rw [hpaths] at hps'
  cases hτ'
  cases hps'
  refine ⟨ρ, c, hcomes, hτ, hc, rfl, fun k hk => ?_⟩
  rw [Insights.callArgs?_congr (hkey _ (by decide) _)]
  exact hgiven k hk

theorem Halts.inside {p q : Prop} {e : Fault} (h : P.Halts durations limit (f :: stale) (f :: stack) p e t)
    (hpq : p → q) : P.Halts durations limit stale stack q e t := by
  obtain ⟨opened, hstack, htrusted⟩ := h.state
  refine ⟨⟨opened ++ [f], ?_, ?_⟩, h.cause.imp_right hpq⟩
  · rw [hstack, List.append_assoc, List.singleton_append]
  · rwa [List.append_assoc, List.singleton_append]

theorem leads_of_nested (hk : k.artifact ∈ f.artifact.walk) (h : TransGen P.forest.Calls k g) :
    TransGen P.forest.Calls f g := by
  obtain ⟨h', hcall, hl⟩ := TransGen.head'_iff.mp h
  exact .head' (calls_of_nested hk hcall) hl

theorem below_of_leads (h : TransGen P.forest.Calls f g) : P.forest.Below f g.artifact :=
  ⟨g, h.to_reflTransGen, g.artifact.mem_walk_self⟩

theorem calledFrom_children (h : TransGen P.forest.Calls f g) :
    P.forest.CalledFrom f.artifact.children g := by
  obtain ⟨k, ⟨call, hc, hk⟩, hl⟩ := TransGen.head'_iff.mp h
  rw [walk_function, List.mem_cons] at hc
  obtain rfl | hc := hc
  · cases hk
  · exact ⟨call, hc, k, hk, hl⟩

theorem Has.nodup_body (hf : P.Has f) : (body f).Nodup := by
  have hs : (body f).Sublist f.artifact.walk := walk_function f ▸ List.sublist_cons_self _ _
  exact (P.unshared.of_map _).sublist (hs.trans (Artifact.walk_sublist hf))

theorem visitBy_of_not_isCall {setup : Setup} (h : a.isCall = false) (s : State) :
    [Pass.recursiveCall, .callDuration].forM (visitBy choose setup enter a) s = (.ok (), s) := by
  cases a <;> first | rfl | cases h

/-- The functions that `f` calls, and those inside, are ready while `f` is under analysis. -/
structure Opens (P : Program) (durations : Durations) (limit : Option Int) (stale stack : List Function)
    (enter : Function → Run Unit) (f : Function) : Prop where
  called : ∀ b ∈ body f, ∀ g, P.forest.target? b = some g →
    P.Ready durations limit (f :: stale) (f :: stack) enter g
  nested : ∀ k : Function, k.artifact ∈ body f →
    P.Serves durations limit (f :: stale) (f :: stack) enter k

theorem Stands.inside (settings : Settings) (hP : P.Acyclic) (hd : P.Discerning) (hon : Honest choose)
    (hf : P.Has f) (hsp : ∀ g, Run.Respects (Spares (P.forest.Touches [g.artifact])) (enter g))
    (hopens : P.Opens durations limit stale stack enter f) (h : P.Stands durations limit (f :: stale) s)
    (hs : s.stack = f :: stack) :
    Run.Ends (Analysis.visitFromBy choose (P.configured durations settings) enter f.id [f.artifact]) s
      (fun _ t => t.stack = f :: stack ∧ P.Stands durations limit (f :: stale) t ∧
        P.Passed durations f (s.insights.callArgs? f) f.artifact.children s t ∧
        Spares (P.forest.Touches f.artifact.children) s t)
      (P.Halts durations limit (f :: stale) (f :: stack)
        (¬P.Passable durations f (s.insights.callArgs? f) f.artifact.children)) := by
  have hsub : ∀ b ∈ walkFrom (f.artifact.children ++ []), b ∈ body f := fun b hb => by
    rwa [List.append_nil] at hb
  rw [Analysis.visitFromBy, show nested? f.id f.artifact = none from if_pos rfl]
  refine Run.ends_bind (hs ▸ h.tick) fun _ t ht => ?_
  obtain ⟨hstack, hins, ht⟩ := ht
  refine Run.ends_bind_of_ok (visitBy_of_not_isCall rfl t) ?_
  have hvisit := ht.visitFromBy settings hP hd hon f.id (f.artifact.children ++ []) hsp hf
    (fun b hb _ => Nat.ne_of_lt (id_lt_of_has hf (hsub b hb)))
    (fun b hb => .here (List.append_nil f.artifact.children ▸ hb))
    (by rw [List.append_nil]; exact hf.nodup_body) (fun b hb => hopens.called b (hsub b hb))
    (fun k hk => hopens.nested k (hsub _ hk)) hstack (congrArg (·.callArgs? f) hins)
  have hspares := spares_visitFromBy hon.quiet (P.configured durations settings) hsp f.id
    (f.artifact.children ++ [])
  refine (hvisit.and_respects hspares).mono (fun _ u hu => ?_) fun e u hu => ?_
  · obtain ⟨⟨hstack', hu, hpassed⟩, htu⟩ := hu
    rw [List.append_nil] at hpassed htu
    refine ⟨hstack', hu, ⟨hpassed.nested, hpassed.shown, hpassed.given, hins ▸ hpassed.advances⟩, ?_⟩
    exact fun i k hT => (htu i k hT).trans (by rw [hins])
  · rwa [List.append_nil] at hu

theorem Acyclic.opens {depth : Nat} (hP : P.Acyclic) (hf : P.Has f) (hw : P.weight f ≤ depth + 1)
    (hclear : P.Clear stack f) (hfresh : ∀ k ∈ stale, ¬TransGen P.forest.Calls f k)
    (ih : ∀ g, P.Has g → P.weight g ≤ depth → P.Clear (f :: stack) g →
      (∀ k ∈ f :: stale, ¬TransGen P.forest.Calls g k) →
      P.Serves durations limit (f :: stale) (f :: stack) enter g) :
    P.Opens durations limit stale stack enter f := by
  refine ⟨fun b hb g hg => ?_, fun k hk => ?_⟩
  · have hcalls := calls_of_mem (mem_body hb) hg
    have hgh := has_of_target? hg
    have hgw : P.weight g ≤ depth :=
      Nat.le_of_lt_succ (Nat.lt_of_lt_of_le (hP.weight_call hf hcalls) hw)
    refine ⟨(hclear.call hP hf hcalls).inactive hgh, fun hm => ?_,
      ih g hgh hgw (hclear.call hP hf hcalls) ?_⟩
    · obtain rfl | hm := List.mem_cons.mp hm
      · exact hP.not_below_of_calls hf hcalls (Forest.below_self _ g)
      · exact hfresh g hm (.single hcalls)
    · intro k hk hl
      obtain rfl | hk := List.mem_cons.mp hk
      · exact hP.not_below_of_calls hf hcalls (below_of_leads hl)
      · exact hfresh k hk (.head hcalls hl)
  · have hkw : P.weight k ≤ depth :=
      Nat.le_of_lt_succ (Nat.lt_of_lt_of_le (hP.weight_nested hf hk) hw)
    refine ih k (mem_module_of_mem_walk hf (mem_body hk)) hkw (hclear.nested hP hf hk) fun k' hk' hl => ?_
    obtain rfl | hk' := List.mem_cons.mp hk'
    · exact hP.not_below_of_nested hf hk (below_of_leads hl)
    · exact hfresh k' hk' (leads_of_nested (mem_body hk) hl)

/-- Entering a function charges it, as deep as it leads. -/
theorem serves_analyzeFunctionBy (hP : P.Acyclic) (hd : P.Discerning) (hon : Honest choose) (depth : Nat)
    (hf : P.Has f) (hw : P.weight f ≤ depth) (hclear : P.Clear stack f)
    (hfresh : ∀ k ∈ stale, ¬TransGen P.forest.Calls f k) :
    P.Serves durations limit stale stack
      (analyzeFunctionBy choose (P.configured durations settings) depth) f := by
  induction depth generalizing f stale stack with
  | zero => exact absurd (Nat.lt_of_lt_of_le (weight_pos hf) hw) (Nat.lt_irrefl 0)
  | succ depth ih =>
    have hsp := spares_analyzeFunctionBy hon.quiet (P.configured durations settings) depth
    have hopens := hP.opens hf hw hclear hfresh fun g hg hgw hgc hgf => ih hg hgw hgc hgf
    intro s hs h
    subst hs
    have hcomes := h.trusted.regular.comes hf
    refine Run.ends_bind ((h.begin hf (hclear.inactive hf)).mono (fun _ _ h => h) fun e t ht =>
      ht.mono ?_) fun b t ht => ?_
    · rintro hn ⟨c, hc⟩
      exact hn (charges_iff.mp hc).1.own
    obtain ⟨rfl, hstack, ht, hps, ⟨τ, hτ, hana⟩, hst⟩ := ht
    have hargs : t.insights.callArgs? f = s.insights.callArgs? f :=
      Insights.callArgs?_congr (hst _ _ fun hT => absurd hT.2 (by decide))
    have hinside : P.Stands durations limit (f :: stale) { t with stack := f :: t.stack } :=
      ⟨ht.clock, ht.trusted⟩
    have hvisit := hinside.inside settings hP hd hon hf hsp hopens
      (congrArg (f :: ·) hstack)
    rw [show ({ t with stack := f :: t.stack } : State).insights.callArgs? f =
      s.insights.callArgs? f from hargs] at hvisit
    rw [if_pos rfl]
    refine Run.ends_inside (Run.ends_bind (hvisit.mono (fun _ _ h => h) fun e u hu =>
      hu.inside ?_) fun _ u hu => ?_)
    · rintro hn ⟨c, hc⟩
      exact hn hc.passable
    obtain ⟨hstack', hu, hpassed, htu⟩ := hu
    have hkey : ∀ k, u.insights.get? f.id k = t.insights.get? f.id k := by
      intro k
      obtain ⟨F, hF, hfF⟩ := hf.top
      refine htu _ _ (hP.not_touches_others hF (fun b hb => walk_subset hfF (mem_body hb)) hfF (.inr ?_))
      exact fun hm => Nat.lt_irrefl _ (id_lt_of_has hf hm)
    obtain ⟨c, hcharges, hshown⟩ := hpassed.charges hτ
    obtain ⟨v, hrun, hstack'', hv, hpaths, huv⟩ := hu.pathDurations hf hcomes hτ
      ((Insights.analyzedArgs?_congr (hkey _)).trans hana)
      (by rwa [Insights.paths?_congr (hkey _)]) hcharges hshown
      fun k hk => hpassed.given k (calledFrom_children hk)
    refine Run.ends_bind_of_ok hrun (Run.ends_pure ⟨?_, ⟨hv.clock, hv.trusted⟩,
      ⟨c, hcharges, fun a ha => ?_, hpaths⟩, fun k hk => ?_, ?_⟩)
    · rw [hstack'', hstack']
      rfl
    · exact (hshown a ha).congr (get?_of_spares huv (.inr (by decide)))
        (get?_of_spares huv (.inr (by decide)))
    · change (v.insights.callArgs? k).isSome
      rw [Insights.callArgs?_congr (get?_of_spares huv (.inr (by decide)))]
      exact hpassed.given k (calledFrom_children hk)
    · have hbegun := advances_of_spares P durations hst fun i k hT => hT.2
      have hdone := advances_of_spares P durations huv fun i k hT => .inl hT.2
      exact (hbegun.trans hpassed.advances).trans hdone

end Program

end CallTime

import Mathlib
import CallTime.Proofs.Charges
import CallTime.Proofs.WellFormed
import CallTime.Proofs.Writes

/-!
The analysis of a well-formed module.

What is known stays upright: no reference in the arguments and conditions that are kept counts its
parameter from the end. Main statement: a module that was read from a source can be analysed and measured
in any order, and no analysis finds a corrupt tree or a parameter out of place.
-/

namespace CallTime

open Analysis

def Note.Upright (T : Value → Prop) : Note → Prop
  | .arguments as => ∀ a ∈ as, a.Upright T
  | .paths ps => ∀ p ∈ ps, ∀ c ∈ p.conditions, c.1.Upright T
  | _ => True

def Insights.Upright (T : Value → Prop) (s : Insights) : Prop :=
  ∀ i k n, s.get? i k = some (.note n) → n.Upright T

namespace Insights

variable {T : Value → Prop} {s : Insights} {f : Function}

theorem upright_empty : ({} : Insights).Upright T := by
  intro i k n h
  rw [get?_empty] at h
  cases h

theorem Upright.note? (h : s.Upright T) {i : NodeId} {k : Key} {n : Note}
    (hn : (s.data i).note? k = some n) : n.Upright T := by
  obtain ⟨e, hg, hn⟩ := Option.bind_eq_some_iff.mp hn
  cases e <;> cases hn
  exact h i k _ hg

theorem Upright.callArgs? (h : s.Upright T) {arguments : List Artifact}
    (ha : s.callArgs? f = some arguments) : ∀ a ∈ arguments, a.Upright T := by
  obtain ⟨n, hn, he⟩ := Option.bind_eq_some_iff.mp ha
  cases n <;> cases he
  exact h.note? hn

theorem Upright.paths? (h : s.Upright T) {paths : List Path} (hp : s.paths? f = some paths) :
    ∀ p ∈ paths, ∀ c ∈ p.conditions, c.1.Upright T := by
  obtain ⟨n, hn, he⟩ := Option.bind_eq_some_iff.mp hp
  cases n <;> cases he
  exact h.note? hn

theorem Upright.effectiveArgs (h : s.Upright T) (hf : f.artifact.Upright T) :
    ∀ a ∈ s.effectiveArgs f, a.Upright T := by
  rw [Insights.effectiveArgs]
  cases hc : s.callArgs? f with
  | some arguments => exact h.callArgs? hc
  | none => exact fun a ha => hf.child (List.mem_append_left _ ha)

theorem Upright.put (h : s.Upright T) (i : NodeId) (k : Key) {e : Entry Note}
    (he : ∀ n, e = .note n → n.Upright T) : (s.put i k e).Upright T := by
  intro j k' n hn
  obtain ⟨hn, -⟩ | hn := get?_put hn
  · exact he n hn.symm
  · exact h j k' n hn

end Insights

namespace Analysis

variable {T : Value → Prop} {P : Program} {setup : Setup} {call : Artifact} {f : Function}
  {s t : Insights}

theorem upright_of_enumerate (hu : P.module.Upright T) (hf : P.Has f) {c c' : Clock} {ps : List Path}
    (h : Path.enumerate P.forest f c = (.ok ps, c')) :
    ∀ p ∈ ps, ∀ c ∈ p.conditions, c.1.Upright T := by
  rw [Path.eq_of_enumerate h]
  intro p hp c hcond
  obtain ⟨trace, ht, rfl⟩ := List.mem_map.mp hp
  have hm := (Artifact.outcomes_sublist_walk ht).subset (List.mem_map_of_mem hcond)
  exact hu.mem_walk (Program.mem_module_of_mem_walk hf
    (Program.mem_body ((Program.walk_body_sublist f).subset hm)))

theorem meets_resolveArguments {forest : Forest} (hs : s.Upright T) (hc : call.Upright T) :
    Meets (fun _ => False) (resolveArguments forest s call) fun as => ∀ a ∈ as, a.Upright T := by
  have hchild : ∀ a ∈ call.children, a.Upright T := fun a ha => hc.child ha
  unfold resolveArguments
  simp only
  cases ho : (forest.enclosing? call).bind s.callArgs? with
  | none => exact meets_ok hchild
  | some outer =>
    obtain ⟨f, -, ho⟩ := Option.bind_eq_some_iff.mp ho
    refine (meets_mapM fun a ha => ?_).mono fun as has => has.2
    split
    · next info name index =>
      split
      · rw [argumentAt_of_nonneg _ ((hchild _ ha).reference info name index (Artifact.mem_walk_self _))]
        refine meets_pure ?_
        cases hat : outer[index.toNat]? with
        | none => exact hchild _ ha
        | some b => exact hs.callArgs? ho b (List.mem_of_getElem? hat)
      · exact meets_ok (hchild _ ha)
    · exact meets_ok (hchild _ ha)

theorem conditions_forgetDerived (p : Path) : (forgetDerived p).conditions = p.conditions := by
  unfold forgetDerived
  split
  · split <;> rfl
  · rfl

theorem upright_summed {ps : List Path} (h : ∀ p ∈ ps, ∀ c ∈ p.conditions, c.1.Upright T)
    (ds : List (List Int)) :
    ∀ p ∈ (if ds.all List.isEmpty then ps.map forgetDerived else ps.zipWith addUp ds),
      ∀ c ∈ p.conditions, c.1.Upright T := by
  split
  · intro p hp c hc
    obtain ⟨q, hq, rfl⟩ := List.mem_map.mp hp
    exact h q hq c (conditions_forgetDerived q ▸ hc)
  · intro p hp c hc
    rw [← List.map_uncurry_zip_eq_zipWith] at hp
    obtain ⟨q, hq, rfl⟩ := List.mem_map.mp hp
    exact h q.1 (List.of_mem_zip hq).1 c hc

theorem Wrote.upright {setup : Setup} (hu : P.module.Upright T) (hf : setup.forest = P.forest)
    (h : Wrote setup (· ∈ P.module.walk) s t) (hs : s.Upright T) : t.Upright T := by
  cases h with
  | arguments g hc h =>
    refine hs.put _ _ fun n hn => ?_
    cases hn
    exact (meets_iff.mp (meets_resolveArguments hs (hu.mem_walk hc))).2 _ h
  | paths hfunction h =>
    refine hs.put _ _ fun n hn => ?_
    cases hn
    exact upright_of_enumerate hu hfunction (hf ▸ h)
  | sums hp h =>
    refine hs.put _ _ fun n hn => ?_
    cases hn
    exact upright_summed (hs.paths? hp) _
  | dropped call k => exact fun i k' n hn => hs i k' n (Insights.get?_drop hn)
  | measured => exact hs.put _ _ fun n hn => by cases hn
  | mean => exact hs.put _ _ fun n hn => by cases hn
  | _ =>
    refine hs.put _ _ fun n hn => ?_
    cases hn
    trivial

theorem upright_of_writes (hu : P.module.Upright T)
    (hf : setup.forest = P.forest)
    (h : Relation.ReflTransGen (Wrote setup (· ∈ P.module.walk)) s t) (hs : s.Upright T) :
    t.Upright T := by
  induction h with
  | refl => exact hs
  | tail _ h ih => exact h.upright hu hf ih

theorem mild_overrun (limit mark : Int) : (Clock.overrun limit mark).Mild := by
  unfold Clock.overrun
  split <;> trivial

theorem mild_spend {n : Nat} (hn : 0 < n) (c : Clock) : Fails Fault.Mild (c.spend (.int n)).1 := by
  cases c with
  | unbounded m => trivial
  | loose v =>
    have h := fails_mild (v.meets_add (.int n)).fails
    simp only [Clock.spend, Value.toInt]
    cases hr : v.add (.int n) with
    | error e =>
      rw [hr] at h
      exact h
    | ok w => trivial
  | metered limit m =>
    simp only [Clock.spend, Value.toInt]
    rw [if_neg (by omega)]
    split
    · exact mild_overrun limit _
    · trivial

theorem fails_measuredDuration (durations : Durations) (insights : Insights) (f : Function) :
    Fails Fault.Mild (measuredDuration durations insights f) := by
  unfold measuredDuration
  split
  · next v _ => exact fails_bind (fails_mild v.fails_toInt) fun _ => fails_pure _
  · split
    · next i _ => exact fails_ite (fails_ok _) (fails_bind (fails_mild i.value.fails_toInt) fun _ => fails_pure _)
    · exact fails_ok _

def Setup.Careful (setup : Setup) : Prop :=
  ∀ insights call, Fails Fault.Mild (setup.detector.flags setup.forest insights call)

theorem Setup.careful_selfCall (h : setup.detector = .selfCall) : setup.Careful := by
  intro insights call
  rw [h]
  simp only [Detector.selfCall]
  split <;> trivial

theorem make_ne_error (hf : P.Has f) {trace : Trace} (ht : trace ∈ f.body.traces) (e : Fault) :
    Path.make P.forest f trace.outcomes trace.emitted ≠ .error e := by
  intro he
  have hmake := Path.mapM_make P.sound (Program.holds hf) (Program.Has.unshared hf)
  obtain ⟨p, -, hp⟩ := exists_of_forall₂ (forall₂_of_mapM hmake).flip ht
  rw [hp] at he
  cases he

theorem Raised.mild (hu : P.module.Upright fun _ => True) (hs : setup.forest = P.forest)
    (hd : setup.Careful) (ht : t.Upright fun _ => True) {start : Clock} {e : Fault}
    (h : Raised setup (· ∈ P.module.walk) start t e) : e.Mild := by
  have hmild {α : Type} {x : Except Fault α} (hx : Fails Fault.Mild x) (he : x = .error e) : e.Mild :=
    (meets_iff.mp hx).1 e he
  cases h with
  | clock hn _ h => exact hmild (mild_spend hn _) h
  | path hf htrace h => exact absurd (hs ▸ h) (make_ne_error hf htrace e)
  | argument hc h => exact ((meets_iff.mp (meets_resolveArguments ht (hu.mem_walk hc))).1 e h).elim
  | signature hf h =>
    exact hmild (Signature.fails_of admits_mild (ht.effectiveArgs (hu.mem_walk hf))) h
  | mark h => exact hmild (fails_mild (Value.fails_truth _)) h
  | detector h => exact hmild (hd t _) h
  | candidate hg hp h =>
    exact hmild (Path.fails_candidates admits_mild (ht.effectiveArgs (hu.mem_walk hg)) (ht.paths? hp)) h
  | mean _ _ h => exact hmild (Path.fails_average _) h
  | measured h => exact hmild (fails_measuredDuration _ _ _) h
  | sum _ _ h => exact hmild (fails_mapM fun i _ => fails_mild i.value.fails_toInt) h
  | missing => trivial

theorem encloses_walk (hs : setup.forest = P.forest) : setup.Encloses (· ∈ P.module.walk) where
  child _ ha _ hc := Artifact.mem_walk_children ha hc
  target _ _ _ hg := Program.has_of_target? (hs ▸ hg)

theorem analyze_safe (hu : P.module.Upright fun _ => True) (hs : setup.forest = P.forest)
    (hd : setup.Careful) {insights : Insights} (hi : insights.Upright fun _ => True) {a : Artifact}
    (ha : a ∈ P.module.walk) {clock : Clock} (hc : Clock.forLimit setup.settings.maxTicks = .ok clock) :
    ((analyze setup insights a).insights.Upright fun _ => True) ∧
      ∀ e, (analyze setup insights a).result = .error e → e.Mild := by
  obtain ⟨hwrites, hraised⟩ := analyze_traced (hs ▸ P.sound) (encloses_walk hs) insights
    (hs ▸ Program.holds ha) ha hc
  have hupright := upright_of_writes hu hs hwrites hi
  exact ⟨hupright, fun e he => (hraised e he).mild hu hs hd hupright⟩

end Analysis

namespace Settings

theorem pos_of_positive? {v : Value} {n : Int} (h : positive? v = some n) : 0 < n := by
  unfold positive? at h
  split at h
  · split at h
    · next hpos => exact Option.some.inj h ▸ hpos
    · cases h
  · exact of_decide_eq_true (Option.filter_eq_some_iff.mp h).2
  · cases h

theorem maxTicks_ofTable (t : OrderedMap Text Value) :
    (ofTable t).maxTicks = .null ∨ ∃ n, 0 < n ∧ (ofTable t).maxTicks = .int n := by
  simp only [ofTable]
  cases h : (t.get? "max_ticks").bind positive? with
  | none => exact .inl rfl
  | some n =>
    obtain ⟨v, -, hv⟩ := Option.bind_eq_some_iff.mp h
    exact .inr ⟨n, pos_of_positive? hv, rfl⟩

theorem pos_of_maxTicks_ofTable {t : OrderedMap Text Value} {n : Int}
    (h : (ofTable t).maxTicks = .int n) : 0 < n := by
  obtain hnull | ⟨m, hm, hint⟩ := maxTicks_ofTable t
  · rw [hnull] at h
    cases h
  · rw [hint] at h
    cases h
    exact hm

theorem exists_clock_ofTable (t : OrderedMap Text Value) :
    ∃ clock, Clock.forLimit (ofTable t).maxTicks = .ok clock := by
  obtain h | ⟨n, hn, h⟩ := maxTicks_ofTable t
  · exact ⟨.unbounded 0, by rw [h]; rfl⟩
  · exact ⟨.metered n 0, by rw [h, Clock.forLimit_int, if_neg (by omega)]⟩

theorem exists_clock (config : Value) :
    ∃ clock, Clock.forLimit (ofValue config).maxTicks = .ok clock := by
  cases config with
  | table entries => exact exists_clock_ofTable ⟨entries⟩
  | _ => exact ⟨_, rfl⟩

end Settings

namespace Session

/-- What is done with a session: the analysis of a node of its module, with any settings, or the
measurement of durations. -/
inductive Next : Session → Session → Prop
  | analyze (s : Session) (config : Value) (passes : List Pass) {a : Artifact}
    (ha : a ∈ s.module.walk) : Next s (s.analyze (Settings.ofValue config) .selfCall passes a).2
  | measure (s : Session) (durations : Durations) : Next s { s with durations }

variable {s t : Session}

theorem analyze_mild (h : s.WellFormed) (hi : s.insights.Upright fun _ => True) (config : Value)
    (passes : List Pass) {a : Artifact} (ha : a ∈ s.module.walk) :
    ((s.analyze (Settings.ofValue config) .selfCall passes a).2.insights.Upright fun _ => True) ∧
      ∀ e, (s.analyze (Settings.ofValue config) .selfCall passes a).1.result = .error e → e.Mild := by
  obtain ⟨P, hforest, hmodule, -⟩ := h.exists_program
  obtain ⟨clock, hc⟩ := Settings.exists_clock config
  have hu : P.module.Upright fun _ => True := hmodule ▸ h.upright fun _ _ _ _ => trivial
  exact analyze_safe hu hforest.symm (Setup.careful_selfCall rfl) hi (hmodule ▸ ha) hc

theorem Next.wellFormed (h : Next s t) (hs : s.WellFormed) : t.WellFormed := by
  obtain ⟨nodup, parent⟩ := hs.unshared
  cases h <;>
    exact ⟨hs.sound, hs.held, hs.module, hs.table, ⟨nodup, parent⟩, hs.root, hs.reference, hs.call⟩

theorem Next.upright (h : Next s t) (hs : s.WellFormed) (hi : s.insights.Upright fun _ => True) :
    t.insights.Upright fun _ => True := by
  cases h with
  | analyze config passes ha => exact (analyze_mild hs hi config passes ha).1
  | measure durations => exact hi

theorem reached_upright (h : Relation.ReflTransGen Next s t) (hs : s.WellFormed)
    (hi : s.insights.Upright fun _ => True) : t.WellFormed ∧ t.insights.Upright fun _ => True := by
  induction h with
  | refl => exact ⟨hs, hi⟩
  | tail _ hn ih => exact ⟨hn.wellFormed ih.1, hn.upright ih.1 ih.2⟩

/-- A source is refused only for a reason. Otherwise it is read as a well-formed module with the functions
it defines, and then no analysis finds a corrupt tree or a parameter out of place, whatever was analysed
and measured before. -/
theorem ofSource_never_breaks (module source : String) (durations : Durations) :
    (∀ e, ofSource module source durations = .error e → Source.Refused source e) ∧
      ∀ s, ofSource module source durations = .ok s →
        (∃ statements, Source.readModule? source.toList = some statements ∧ s.Implements statements) ∧
          s.WellFormed ∧ ∀ t, Relation.ReflTransGen Next s t → ∀ (config : Value) (passes : List Pass),
            ∀ a ∈ t.module.walk, ∀ e,
              (t.analyze (Settings.ofValue config) .selfCall passes a).1.result = .error e →
                e ≠ .outOfRange ∧ ∀ reason context, e ≠ .broken reason context := by
  obtain ⟨hrefused, hread⟩ := meets_iff.mp (wellFormed_ofSource module source durations)
  refine ⟨hrefused, fun s hs => ?_⟩
  obtain ⟨himplements, hwell, hempty⟩ := hread s hs
  refine ⟨himplements, hwell, fun t ht config passes a ha e he => ?_⟩
  obtain ⟨htw, hti⟩ := reached_upright ht hwell (hempty ▸ Insights.upright_empty)
  exact Fault.mild_iff.mp ((analyze_mild htw hti config passes ha).2 e he)

def chainedSource : String := "def f(x=g()): f()\ndef g(y=1): pass\n"

def chained : List Source.Stmt := [
  .functionDef 1 "f" { positional := [⟨"x", none, some (.call ⟨1, .name 1 "g" .load, [], []⟩)⟩] }
    [.expr 1 (.call ⟨1, .name 1 "f" .load, [], []⟩)],
  .functionDef 2 "g" { positional := [⟨"y", none, some (.constant 2 (.int 1) { place := [19] })⟩] }
    [.pass 2]]

theorem readModule?_chained : Source.readModule? chainedSource.toList = some chained := by
  unfold chainedSource chained
  cbv

theorem isSome_lowerModule_chained : (Source.lowerModule "m" chained).toOption.isSome = true := by
  unfold chained
  cbv

theorem keys_chained : (Source.Signature.collect chained).values.map (·.key) = ["f", "g"] := by
  unfold chained
  cbv

theorem exists_ofSource_chained : ∃ s, ofSource "m" chainedSource {} = .ok s := by
  have hnull : ¬chainedSource.toList.contains (Char.ofNat 0) = true := by decide
  have hload : Source.load "m" chainedSource = Source.lowerModule "m" chained := by
    simp only [Source.load, readModule?_chained]
    rw [if_neg hnull]
  have hlower := isSome_lowerModule_chained
  rw [ofSource, hload]
  cases h : Source.lowerModule "m" chained with
  | error e =>
    rw [h] at hlower
    cases hlower
  | ok drafts => exact ⟨start drafts {}, rfl⟩

theorem chained_never_breaks : ∃ s, ofSource "m" chainedSource {} = .ok s ∧ s.WellFormed ∧
    (s.forest.functions.get? "f").isSome ∧ (s.forest.functions.get? "g").isSome := by
  obtain ⟨s, hs⟩ := exists_ofSource_chained
  obtain ⟨⟨statements, hr, himplements⟩, hwell, -⟩ :=
    (ofSource_never_breaks "m" chainedSource {}).2 s hs
  rw [readModule?_chained] at hr
  obtain rfl := Option.some.inj hr
  have hkey {key : String} (hk : key ∈ ["f", "g"]) : (s.forest.functions.get? key).isSome := by
    rw [← keys_chained] at hk
    obtain ⟨signature, hm, rfl⟩ := List.mem_map.mp hk
    exact himplements.entered signature hm
  exact ⟨s, hs, hwell, hkey List.mem_cons_self, hkey (List.mem_cons_of_mem _ List.mem_cons_self)⟩

end Session

end CallTime

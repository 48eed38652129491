import CallTime.Proofs.Digits
import CallTime.Proofs.Literals
import CallTime.Proofs.Safety

/-!
The analysis of a source, and the report on it.

Durations that were loaded are whole numbers that can be written, and so are the durations that are
derived from them. Main statements: where the literals are ordinary, an analysis fails only because the
budget is used up or because a mean is too large, and its report only because a mean is too large. The
lines of the report can be written unless a line or the paths of a function have too high a number.
-/

namespace CallTime

open Analysis
open CallTime.Value (Ordinary)

theorem admits_ordinary : Admits (fun _ => False) Ordinary where
  truth v hv := by
    obtain ⟨b, hb⟩ := hv.testable
    rw [hb]
    exact fails_ok b
  ordinary _ hv := hv
  lookup _ hv ht := hv.kind_ne ht

/-- A duration is a whole number that can be written, a path carries a derived duration or none, a call
is marked with `true` and the source of a duration is a text of characters. -/
def Entry.Regular (k : Key) : Entry Note → Prop
  | .insight i => ∃ n, i.value = .int n ∧ isLong n = false
  | .note (.paths ps) => ∀ p ∈ ps, ∃ q d, p = Path.timed q d
  | .note (.value v) =>
    k = .recursiveCall ∧ v = .bool true ∨ k = .durationSource ∧ ∃ text : String, v = .str text
  | _ => True

def Insights.Regular (s : Insights) : Prop := ∀ i k e, s.get? i k = some e → e.Regular k

namespace Insights

variable {s : Insights} {f : Function} {i : NodeId}

theorem regular_empty : ({} : Insights).Regular := by
  intro i k e h
  rw [get?_empty] at h
  cases h

theorem Regular.put (h : s.Regular) (i : NodeId) {k : Key} {e : Entry Note} (he : e.Regular k) :
    (s.put i k e).Regular := by
  intro j k' e' hg
  obtain ⟨rfl, rfl⟩ | hg := get?_put hg
  · exact he
  · exact h j k' e' hg

theorem Regular.note? (h : s.Regular) {k : Key} {n : Note} (hn : (s.data i).note? k = some n) :
    (Entry.note n).Regular k := by
  obtain ⟨e, hg, hn⟩ := Option.bind_eq_some_iff.mp hn
  cases e <;> cases hn
  exact h i k _ hg

theorem Regular.paths? (h : s.Regular) {ps : List Path} (hp : s.paths? f = some ps) :
    ∀ p ∈ ps, ∃ q d, p = Path.timed q d := by
  obtain ⟨n, hn, he⟩ := Option.bind_eq_some_iff.mp hp
  cases n <;> cases he
  exact h.note? hn

theorem Regular.duration? (h : s.Regular) {d : Insight} (hd : s.duration? i = some d) :
    ∃ n, d.value = .int n ∧ isLong n = false := by
  obtain ⟨e, hg, he⟩ := Option.bind_eq_some_iff.mp hd
  cases e <;> cases he
  exact h i _ _ hg

theorem Regular.recursive? (h : s.Regular) {v : Value} (hv : s.recursive? i = some v) :
    v = .bool true := by
  obtain ⟨n, hn, he⟩ := Option.bind_eq_some_iff.mp hv
  cases n <;> cases he
  obtain ⟨-, hv⟩ | ⟨hk, -⟩ := h.note? hn
  · exact hv
  · exact absurd hk (by decide)

theorem Regular.durationSource? (h : s.Regular) {v : Value} (hv : s.durationSource? i = some v) :
    ∃ text : String, v = .str text := by
  obtain ⟨n, hn, he⟩ := Option.bind_eq_some_iff.mp hv
  cases n <;> cases he
  obtain ⟨hk, -⟩ | ⟨-, hv⟩ := h.note? hn
  · exact absurd hk (by decide)
  · exact hv

theorem get?_of_paths? {ps : List Path} (h : s.paths? f = some ps) :
    s.get? f.id .paths = some (.note (.paths ps)) := by
  obtain ⟨n, hn, he⟩ := Option.bind_eq_some_iff.mp h
  obtain ⟨e, hg, hn⟩ := Option.bind_eq_some_iff.mp hn
  cases e <;> cases hn
  cases n <;> cases he
  exact hg

theorem paths?_of_get? {ps : List Path} (h : s.get? f.id .paths = some (.note (.paths ps))) :
    s.paths? f = some ps := by
  rw [get?] at h
  rw [Insights.paths?, InsightData.note?, h]
  rfl

def Overflows (s : Insights) : Prop :=
  ∃ g paths chosen, s.paths? g = some paths ∧ chosen.Sublist paths ∧
    Path.average chosen = .error .quotientTooLarge

theorem Regular.overflows (h : s.Regular) {g : Function} {paths chosen : List Path}
    (hp : s.paths? g = some paths) (hc : chosen.Sublist paths) {e : Fault}
    (he : Path.average chosen = .error e) : e = .quotientTooLarge ∧ s.Overflows := by
  obtain rfl := Path.average_eq_error (fun q hq => h.paths? hp q (hc.subset hq)) he
  exact ⟨rfl, g, paths, chosen, hp, hc, he⟩

end Insights

/-- The durations are whole numbers that can be written. -/
def Durations.Whole (d : Durations) : Prop :=
  ∀ v ∈ d.values.values, ∃ n, v = .int n ∧ isLong n = false

theorem Durations.Whole.measured? {d : Durations} (h : d.Whole) {f : Function} {v : Value}
    (hv : d.measured? f = some v) : ∃ n, v = .int n ∧ isLong n = false := by
  unfold Durations.measured? at hv
  split at hv
  · cases hv
  · exact h v (OrderedMap.mem_values_of_get? hv)

namespace Analysis

variable {P : Program} {setup : Setup} {s t : Insights} {N : Artifact → Prop} {forest : Forest}

theorem timed_summed {ps : List Path} (h : ∀ p ∈ ps, ∃ q d, p = Path.timed q d)
    (ds : List (List Int)) :
    ∀ p ∈ (if ds.all List.isEmpty then ps.map forgetDerived else ps.zipWith addUp ds),
      ∃ q d, p = Path.timed q d := by
  split
  · intro p hp
    obtain ⟨q, hq, rfl⟩ := List.mem_map.mp hp
    obtain ⟨q, d, rfl⟩ := h q hq
    exact ⟨q, none, q.forgetDerived_timed d⟩
  · intro p hp
    rw [← List.map_uncurry_zip_eq_zipWith] at hp
    obtain ⟨⟨p, found⟩, hm, rfl⟩ := List.mem_map.mp hp
    obtain ⟨q, d, rfl⟩ := h p (List.of_mem_zip hm).1
    exact ⟨q, _, q.addUp_timed d found⟩

theorem meets_measuredDuration {durations : Durations} (hd : durations.Whole) (hs : s.Regular)
    (f : Function) :
    Meets (fun _ => False) (measuredDuration durations s f) fun d => ∀ n ∈ d, isLong n = false := by
  unfold measuredDuration
  split
  · next v hv =>
    obtain ⟨n, rfl, hn⟩ := hd.measured? hv
    exact meets_ok fun m hm => Option.some.inj hm ▸ hn
  · split
    · next i hi =>
      obtain ⟨n, hi, hn⟩ := hs.duration? hi
      rw [hi]
      split
      · exact meets_ok fun m hm => by cases hm
      · exact meets_ok fun m hm => Option.some.inj hm ▸ hn
    · exact meets_ok fun m hm => by cases hm

theorem isLong_of_means (hs : s.Regular) {n : Int} (h : s.Means n) : isLong n = false := by
  obtain ⟨g, paths, chosen, hp, hc, ha⟩ := h
  exact Path.isLong_of_average (fun q hq => hs.paths? hp q (hc.subset hq)) ha

theorem Wrote.regular (hd : setup.durations.Whole) (h : Wrote setup N s t) (hs : s.Regular) :
    t.Regular := by
  cases h with
  | arguments => exact hs.put _ trivial
  | signature => exact hs.put _ trivial
  | mark => exact hs.put _ (.inl ⟨rfl, rfl⟩)
  | paths _ h =>
    exact hs.put _ fun p hp => ⟨p, none, (Path.timed_none (Path.bare_of_enumerate h p hp)).symm⟩
  | sums hp => exact hs.put _ (timed_summed (hs.paths? hp) _)
  | measured call h =>
    exact hs.put _ ⟨_, rfl, (meets_iff.mp (meets_measuredDuration hd hs _)).2 _ h _ rfl⟩
  | mean call h => exact hs.put _ ⟨_, rfl, isLong_of_means hs h⟩
  | source call text => exact hs.put _ (.inr ⟨rfl, text, rfl⟩)
  | dropped => exact fun i k e hg => hs i k e (Insights.get?_drop hg)

theorem regular_of_writes (hd : setup.durations.Whole)
    (h : Relation.ReflTransGen (Wrote setup N) s t) (hs : s.Regular) : t.Regular := by
  induction h with
  | refl => exact hs
  | tail _ h ih => exact h.regular hd ih

theorem fails_knownDurations_whole (hs : s.Regular) (p : Path) :
    Fails (fun _ => False) (knownDurations s p) := by
  refine fails_mapM fun i hi => ?_
  obtain ⟨a, -, ha⟩ := List.mem_filterMap.mp hi
  split at ha
  · obtain ⟨n, hn, -⟩ := hs.duration? ha
    rw [hn]
    exact fails_ok _
  · cases ha

/-- The settings ask for no limit or for a whole one, the detector is the usual one, and every pass over
paths is implemented. -/
structure Setup.Usual (setup : Setup) : Prop where
  limit : setup.settings.maxTicks = .null ∨ ∃ n, setup.settings.maxTicks = .int n
  detector : setup.detector = .selfCall
  passes : .watch .missing ∉ setup.passes
  durations : setup.durations.Whole

inductive Setup.Exhausted (setup : Setup) : Fault → Prop
  | mk {mark limit : Int} (hl : setup.settings.maxTicks = .int limit) (h : limit < mark) :
    Setup.Exhausted setup (Clock.overrun limit mark)

theorem Setup.Usual.exhausted (h : setup.Usual) {start c : Clock}
    (hs : Clock.forLimit setup.settings.maxTicks = .ok start) (hc : start.Kin c) {n : Nat}
    (hn : 0 < n) {e : Fault} (he : (c.spend (.int n)).1 = .error e) : setup.Exhausted e := by
  obtain hl | ⟨limit, hl⟩ := h.limit
  · rw [hl] at hs
    cases hs
    obtain ⟨m, rfl⟩ := hc
    cases he
  · rw [hl, Clock.forLimit_int] at hs
    split at hs <;> cases hs
    obtain ⟨m, rfl⟩ := hc
    simp only [Clock.spend, Value.toInt] at he
    rw [if_neg (by omega)] at he
    split at he <;> cases he
    next hlt => exact .mk hl hlt

theorem Raised.exhausted_or_overflows (hu : P.module.Upright Ordinary) (hs : setup.forest = P.forest)
    (usual : setup.Usual) (ht : t.Upright Ordinary) (hr : t.Regular) {start : Clock}
    (hc : Clock.forLimit setup.settings.maxTicks = .ok start) {e : Fault}
    (h : Raised setup (· ∈ P.module.walk) start t e) :
    setup.Exhausted e ∨ e = .quotientTooLarge ∧ t.Overflows := by
  have hnever {α : Type} {x : Except Fault α} (hx : Fails (fun _ => False) x) (he : x = .error e) :
      False :=
    (meets_iff.mp hx).1 e he
  cases h with
  | clock hn hkin h => exact .inl (usual.exhausted hc hkin hn h)
  | mean hp hchosen h => exact .inr (hr.overflows hp hchosen h)
  | path hf htrace h => exact absurd (hs ▸ h) (make_ne_error hf htrace e)
  | argument hc h => exact ((meets_iff.mp (meets_resolveArguments ht (hu.mem_walk hc))).1 e h).elim
  | signature hf h =>
    exact (hnever (Signature.fails_of admits_ordinary (ht.effectiveArgs (hu.mem_walk hf))) h).elim
  | @mark call _ h =>
    cases hv : t.recursive? call.id with
    | none =>
      rw [hv] at h
      cases h
    | some v =>
      rw [hv, hr.recursive? hv] at h
      cases h
  | detector h =>
    rw [usual.detector] at h
    simp only [Detector.selfCall] at h
    split at h <;> cases h
  | candidate hg hp h =>
    exact (hnever (Path.fails_candidates admits_ordinary (ht.effectiveArgs (hu.mem_walk hg))
      (ht.paths? hp)) h).elim
  | measured h => exact (hnever (meets_measuredDuration usual.durations hr _).fails h).elim
  | sum _ _ h => exact (hnever (fails_knownDurations_whole hr _) h).elim
  | missing h => exact absurd h usual.passes

/-- An analysis that starts with nothing known leaves regular entries, and fails only because the budget
is used up or a mean is too large. -/
theorem analyze_exhausted_or_overflows (hu : P.module.Upright Ordinary)
    (hs : setup.forest = P.forest) (usual : setup.Usual) {start : Clock}
    (hc : Clock.forLimit setup.settings.maxTicks = .ok start) :
    (analyze setup {} P.module).insights.Regular ∧
      ∀ e, (analyze setup {} P.module).result = .error e →
        setup.Exhausted e ∨ e = .quotientTooLarge ∧ (analyze setup {} P.module).insights.Overflows := by
  have hself : P.module ∈ P.module.walk := P.module.mem_walk_self
  obtain ⟨hwrites, hraised⟩ := analyze_traced (hs ▸ P.sound) (encloses_walk hs) {}
    (hs ▸ Program.holds hself) hself hc
  have hregular := regular_of_writes usual.durations hwrites Insights.regular_empty
  have hupright := upright_of_writes hu hs hwrites Insights.upright_empty
  exact ⟨hregular, fun e he => (hraised e he).exhausted_or_overflows hu hs usual hupright hregular hc⟩

end Analysis

theorem Run.meets_of_yields {α : Type} {E : Fault → Prop} {x : Run α} {s : State} {Q : α → Prop}
    (h : Run.Yields E x s fun a _ => Q a) : Meets E (x s).1 Q := by
  unfold Run.Yields at h
  generalize x s = result at h ⊢
  obtain ⟨e | a, t⟩ := result <;> exact h

namespace Report

open Run

variable {P : Program} {known : Insights} {s : State} {f : Function}

theorem yields_mapM {α β : Type} {E : Fault → Prop} {I : State → Prop} {R : α → β → Prop}
    {g : α → Run β} {as : List α}
    (h : ∀ a ∈ as, ∀ s, I s → Yields E (g a) s fun b t => R a b ∧ I t) (hs : I s) :
    Yields E (as.mapM g) s fun bs t => List.Forall₂ R as bs ∧ I t := by
  induction as generalizing s with
  | nil => exact yields_pure ⟨.nil, hs⟩
  | cons a as ih =>
    obtain ⟨ha, has⟩ := List.forall_mem_cons.mp h
    rw [List.mapM_cons]
    refine yields_bind (ha s hs) fun b t hb => yields_bind (ih has hb.2) fun bs u hbs => ?_
    exact yields_pure ⟨.cons hb.1 hbs.1, hbs.2⟩

/-- Making a report has added nothing to what was known but paths without durations. -/
structure Extends (known : Insights) (s : State) : Prop where
  clock : ∃ m, s.clock = .unbounded m
  regular : s.insights.Regular
  paths : ∀ i ps, s.insights.get? i .paths = some (.note (.paths ps)) →
    known.get? i .paths = some (.note (.paths ps)) ∨ ∀ p ∈ ps, p.data = {}

theorem average_bare {paths : List Path} (h : ∀ p ∈ paths, p.data = {}) :
    Path.average paths = .ok none := by
  have hnone : paths.filterMap Path.duration? = [] := by
    rw [List.filterMap_eq_nil_iff]
    intro p hp
    rw [Path.duration?, h p hp]
    rfl
  rw [Path.average, hnone]

theorem Extends.overflows (h : Extends known s) {paths : List Path}
    (hp : s.insights.paths? f = some paths) {e : Fault} (he : Path.average paths = .error e) :
    e = .quotientTooLarge ∧ known.Overflows := by
  obtain rfl := Path.average_eq_error (h.regular.paths? hp) he
  obtain hk | hbare := h.paths f.id paths (Insights.get?_of_paths? hp)
  · exact ⟨rfl, f, paths, paths, Insights.paths?_of_get? hk, .refl _, he⟩
  · rw [average_bare hbare] at he
    cases he

theorem yields_pathsOf {E : Fault → Prop} (hf : P.Has f) (h : Extends known s) :
    Yields E (pathsOf P.forest f) s fun ps t => t.insights.paths? f = some ps ∧ Extends known t := by
  obtain ⟨m, hm⟩ := h.clock
  obtain ⟨k, hk⟩ := (Program.Has.pays hf).unbounded m
  obtain ⟨ps, hps, hp⟩ | ⟨-, ⟨e, c, he, -⟩ | ⟨ps, c, es, he, hp⟩⟩ := pathsOf_cases P.forest f s
  · exact yields_of_ok hp ⟨hps, h⟩
  · rw [hm, hk] at he
    cases he
  · have hbare := Path.bare_of_enumerate he
    refine yields_of_ok hp ⟨s.paths?_put f ps, ⟨k, ?_⟩, ?_, fun i qs hqs => ?_⟩
    · rw [hm, hk] at he
      cases he
      rfl
    · exact h.regular.put _ fun p hp => ⟨p, none, (Path.timed_none (hbare p hp)).symm⟩
    · obtain ⟨heq, -⟩ | hqs := Insights.get?_put hqs
      · cases heq
        exact .inr hbare
      · exact h.paths i qs hqs

theorem yields_functionEntry (hf : P.Has f) (h : Extends known s) :
    Yields (fun e => e = .quotientTooLarge ∧ known.Overflows) (FunctionEntry.make P.forest f) s
      fun entry t => (entry.function = f.qualified ∧ ∀ n ∈ entry.estimated, isLong n = false) ∧
        Extends known t := by
  refine yields_bind (yields_pathsOf hf h) fun paths t ht => ?_
  obtain ⟨hp, ht⟩ := ht
  refine yields_bind (Q := fun mean u => (∀ n ∈ mean, isLong n = false) ∧ u = t) ?_
    fun estimated u hu => ?_
  · cases he : Path.average paths with
    | error e => exact ht.overflows hp he
    | ok mean =>
      refine yields_pure ⟨fun n hn => ?_, rfl⟩
      cases hn
      exact Path.isLong_of_average (ht.regular.paths? hp) he
  obtain ⟨hestimated, rfl⟩ := hu
  refine yields_bind (yields_mapM (I := (· = u)) (R := fun _ _ => True) ?_ rfl) fun ds v hv => ?_
  · rintro p hpm _ rfl
    obtain ⟨q, d, rfl⟩ := ht.regular.paths? hp p hpm
    rw [Path.duration?_timed]
    cases d <;> exact ⟨trivial, rfl⟩
  · obtain ⟨-, rfl⟩ := hv
    exact yields_pure ⟨⟨rfl, hestimated⟩, ht⟩

theorem meets_callEntry (forest : Forest) {insights : Insights} (h : insights.Regular) (f : Function) :
    Meets (fun _ => False) (CallEntry.all forest insights f)
      fun cs => ∀ c ∈ cs, isLong c.duration.value = false := by
  refine (meets_mapM (R := fun c : CallEntry => isLong c.duration.value = false)
    fun c hc => ?_).mono fun _ => And.right
  obtain ⟨a, -, ha⟩ := List.mem_filterMap.mp hc
  split at ha
  · next info name arguments target =>
    obtain ⟨d, hd, rfl⟩ := Option.map_eq_some_iff.mp ha
    obtain ⟨n, hn, hlong⟩ := h.duration? hd
    have hsource : ∃ text : String, CallEntry.sourceOf insights (.call info name arguments target) d =
        .str text := by
      unfold CallEntry.sourceOf
      cases hs : insights.durationSource? (Artifact.call info name arguments target).id with
      | none => exact ⟨if d.derived then "paths" else "measured", by cases d.derived <;> rfl⟩
      | some v =>
        obtain ⟨text, rfl⟩ := h.durationSource? hs
        exact ⟨text, rfl⟩
    obtain ⟨text, htext⟩ := hsource
    simp only [CallEntry.make, hn, htext, Value.toInt, Field.nullable?, Field.text?,
      Text.string?_ofString]
    exact meets_ok hlong
  · cases ha

/-- The durations in the report can be written. -/
structure Writable (r : Report) : Prop where
  calls : ∀ c ∈ r.calls, isLong c.duration.value = false
  functions : ∀ f ∈ r.functions, ∀ n ∈ f.estimated, isLong n = false

/-- The number of a line, or of the paths of a function, cannot be written. -/
def Crowded (r : Report) : Prop :=
  (∃ c ∈ r.calls, ∃ n ∈ c.line, isLong n = true) ∨ ∃ f ∈ r.functions, isLong f.pathCount = true

theorem Writable.fails_lines {r : Report} (h : r.Writable) :
    Fails (fun e => e = .wrongValue ∧ r.Crowded) r.lines := by
  refine fails_bind (fails_mapM fun c hc => ?_) fun _ =>
    fails_bind (fails_mapM fun f hf => ?_) fun _ => fails_pure _
  · rw [callLine_eq]
    split
    · exact fails_ok _
    · next hp =>
      refine meets_error ⟨rfl, .inl ⟨c, hc, ?_⟩⟩
      unfold CallEntry.printable at hp
      cases hl : c.line with
      | none => simp [hl, h.calls c hc] at hp
      | some n => exact ⟨n, rfl, by simpa [hl, h.calls c hc] using hp⟩
  · rw [functionLine?_eq]
    split
    · exact fails_ok _
    · next hp =>
      refine meets_error ⟨rfl, .inr ⟨f, hf, ?_⟩⟩
      unfold FunctionEntry.printable at hp
      cases he : f.estimated with
      | none => simp [he] at hp
      | some n => simpa [he, h.functions f hf n he] using hp

theorem yields_make (path : Option String) (language module : String) {functions : List Function}
    (hf : ∀ f ∈ functions, P.Has f) (h : Extends known s) :
    Yields (fun e => e = .quotientTooLarge ∧ known.Overflows)
      (make P.forest path language module functions) s fun r _ =>
        (r.path = path ∧ r.language = language ∧ r.module = module ∧
          r.functions.map (·.function) = functions.map (·.qualified)) ∧ r.Writable := by
  refine yields_bind (yields_mapM (fun f hm s hs => yields_functionEntry (hf f hm) hs) h)
    fun entries t ht => ?_
  refine yields_bind (yields_mapM (I := (· = t))
    (R := fun _ cs => ∀ c ∈ cs, isLong c.duration.value = false) ?_ rfl) fun calls u hu => ?_
  · intro f _ u hu
    have hentries := meets_callEntry P.forest (hu ▸ ht.2.regular) f
    refine yields_bind_of_ok (insights_apply u) ?_
    cases hr : CallEntry.all P.forest u.insights f with
    | error e =>
      rw [hr] at hentries
      exact hentries.elim
    | ok entries =>
      rw [hr] at hentries
      exact yields_pure ⟨hentries, hu⟩
  · refine yields_pure ⟨⟨rfl, rfl, rfl, ?_⟩, fun c hc => ?_, fun entry he => ?_⟩
    · rw [← List.forall₂_eq_eq_eq, List.forall₂_map_left_iff, List.forall₂_map_right_iff]
      exact ht.1.flip.imp fun _ _ he => he.1
    · obtain ⟨cs, hcs, hc⟩ := List.mem_flatten.mp hc
      obtain ⟨f, -, hshort⟩ := exists_of_forall₂ hu.1 hcs
      exact hshort c hc
    · obtain ⟨f, -, hentry⟩ := exists_of_forall₂ ht.1 he
      exact hentry.2

end Report

namespace Session

/-- The session is as it is right after a source was read, with durations that are whole numbers. -/
structure Fresh (s : Session) : Prop where
  upright : s.module.Upright Ordinary
  wellFormed : s.WellFormed
  whole : s.durations.Whole
  empty : s.insights = {}

variable {s : Session}

theorem fresh_ofSource (module source : String) {durations : Durations} (hd : durations.Whole) :
    Meets (Source.Refused source) (ofSource module source durations) Fresh := by
  refine (upright_ofSource module source durations).mono fun s h => ?_
  obtain ⟨hu, hw, hdur, hi⟩ := h
  exact ⟨hu, hw, hdur ▸ hd, hi⟩

theorem Fresh.analyze (h : s.Fresh) (t : OrderedMap Text Value) :
    (s.analyze (.ofTable t) .selfCall defaultPasses s.module).2.insights.Regular ∧
      ∀ e, (s.analyze (.ofTable t) .selfCall defaultPasses s.module).1.result = .error e →
        (∃ mark limit, e = Clock.overrun limit mark ∧ (Settings.ofTable t).maxTicks = .int limit ∧
          limit < mark) ∨
        e = .quotientTooLarge ∧
          (s.analyze (.ofTable t) .selfCall defaultPasses s.module).2.insights.Overflows := by
  obtain ⟨P, hforest, hmodule, -⟩ := h.wellFormed.exists_program
  obtain ⟨clock, hc⟩ := Settings.exists_clock_ofTable t
  have usual : Setup.Usual { forest := s.forest, durations := s.durations, settings := .ofTable t } := by
    have hpasses : .watch .missing ∉ defaultPasses := by decide
    refine ⟨(Settings.maxTicks_ofTable t).imp_right ?_, rfl, hpasses, h.whole⟩
    rintro ⟨n, -, hn⟩
    exact ⟨n, hn⟩
  have hu : P.module.Upright Ordinary := hmodule ▸ h.upright
  obtain ⟨hregular, hfails⟩ := analyze_exhausted_or_overflows hu hforest.symm usual hc
  rw [hmodule] at hregular hfails
  simp only [Session.analyze, h.empty]
  refine ⟨hregular, fun e he => (hfails e he).imp_left fun hex => ?_⟩
  cases hex with
  | mk hl hlt => exact ⟨_, _, rfl, hl, hlt⟩

theorem WellFormed.report (h : s.WellFormed) (hr : s.insights.Regular) (path : Option String)
    (language module : String) :
    Meets (fun e => e = .quotientTooLarge ∧ s.insights.Overflows) (s.report path language module).1
      fun r => (r.path = path ∧ r.language = language ∧ r.module = module ∧
        r.functions.map (·.function) = s.functions.map (·.qualified)) ∧ r.Writable := by
  obtain ⟨P, hforest, hmodule, hfunctions⟩ := h.exists_program
  have hmake := Report.yields_make (P := P) path language module
    (fun f hf => Program.mem_module (hfunctions.symm ▸ hf) f.artifact.mem_walk_self)
    (s := { insights := s.insights, clock := .unbounded 0 }) ⟨⟨0, rfl⟩, hr, fun _ _ h => .inl h⟩
  rw [hforest] at hmake
  exact Run.meets_of_yields hmake

end Session

end CallTime

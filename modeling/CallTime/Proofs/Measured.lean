import Mathlib
import CallTime.Proofs.Execution
import CallTime.Proofs.Steps
import CallTime.Proofs.Termination

/-!
Measured values outlast every analysis.

An analysis derives durations and takes derived ones back; what was measured stays where it is. Main
statement: whatever analyses are made one after the other, of whatever forests, and however each of them
ends, every measured duration of a node and of a path is there afterwards, and a call with a measured
duration keeps its source.
-/

namespace CallTime

namespace InsightData

variable {ν : Type} {d : InsightData ν} {k k' : Key}

def measured? (d : InsightData ν) (k : Key) : Option Insight := (d.insight? k).filter (!·.derived)

theorem measured?_eq_some {i : Insight} :
    d.measured? k = some i ↔ d.insight? k = some i ∧ i.derived = false := by
  simp [measured?, Option.filter_eq_some_iff]

theorem insight?_iff_measured? {i : Insight} (h : i.derived = false) :
    d.insight? k = some i ↔ d.measured? k = some i := by
  rw [measured?_eq_some, and_iff_left h]

theorem measured?_eq_none : d.measured? k = none ↔ ∀ i, d.insight? k = some i → i.derived = true := by
  simp [measured?, Option.filter_eq_none_iff]

theorem measured?_congr {d' : InsightData ν} (h : d'.get? k = d.get? k) :
    d'.measured? k = d.measured? k := by
  rw [measured?, measured?, insight?, insight?, h]

theorem measured?_remove (d : InsightData ν) (k k' : Key) :
    (d.remove k).measured? k' = if k = k' then none else d.measured? k' := by
  rw [measured?, insight?, get?_remove]
  split <;> rfl

theorem set_of_measured? {i new : Insight} (hi : d.measured? k = some i) (h : new.derived = true) :
    d.set k (.insight new) = (d, false) := by
  obtain ⟨hi, hd⟩ := measured?_eq_some.mp hi
  cases he : d.get? k with
  | none => simp [insight?, he] at hi
  | some e =>
    cases e with
    | note n => simp [insight?, he, Entry.insight?] at hi
    | insight j => simp_all [insight?, Entry.insight?, set, Entry.blocker?]

theorem measured?_set_derived (d : InsightData ν) (k : Key) {new : Insight} (h : new.derived = true) :
    (d.set k (.insight new)).1.measured? k = d.measured? k := by
  cases hm : d.measured? k with
  | some i => rw [set_of_measured? hm h, hm]
  | none =>
    rw [measured?_eq_none]
    intro i hi
    rw [insight?, get?_set_insight d (measured?_eq_none.mp hm)] at hi
    cases hi
    exact h

end InsightData

namespace Path

def way (p : Path) : Path := { p with data := {} }

/-- What no analysis changes about a path: the way it goes, and what was measured. -/
def kept (p : Path) : Path × Option Insight := (p.way, p.data.measured? .pathDuration)

theorem kept_eq_iff {p q : Path} : q.kept = p.kept ↔ q.function = p.function ∧
    q.conditions = p.conditions ∧ q.artifacts = p.artifacts ∧
      q.data.measured? .pathDuration = p.data.measured? .pathDuration := by
  simp [kept, way, and_assoc]

theorem forall₂_kept {ps qs : List Path} (h : qs.map kept = ps.map kept) :
    List.Forall₂ (fun p q => q.kept = p.kept) ps qs := by
  rw [← List.forall₂_eq_eq_eq, List.forall₂_map_left_iff, List.forall₂_map_right_iff] at h
  exact h.flip

end Path

namespace Insights

/-- What was measured in `s` is there in `t`, and nothing else counts as measured. -/
structure Retains (s t : Insights) : Prop where
  durations : ∀ i, (t.data i).measured? .functionDuration = (s.data i).measured? .functionDuration
  sources : ∀ i, ((s.data i).measured? .functionDuration).isSome →
    t.get? i .durationSource = s.get? i .durationSource
  paths : ∀ f ps, s.paths? f = some ps →
    ∃ qs, t.paths? f = some qs ∧ qs.map Path.kept = ps.map Path.kept
  fresh : ∀ f, s.paths? f = none → ∀ qs, t.paths? f = some qs →
    ∀ q ∈ qs, q.data.measured? .pathDuration = none

variable {s t u : Insights}

theorem Retains.refl (s : Insights) : Retains s s where
  durations _ := rfl
  sources _ _ := rfl
  paths _ ps h := ⟨ps, h, rfl⟩
  fresh _ h qs h' := by
    rw [h] at h'
    cases h'

theorem Retains.trans (h : Retains s t) (h' : Retains t u) : Retains s u where
  durations i := (h'.durations i).trans (h.durations i)
  sources i hi := (h'.sources i (h.durations i ▸ hi)).trans (h.sources i hi)
  paths f ps hp := by
    obtain ⟨qs, hq, hk⟩ := h.paths f ps hp
    obtain ⟨rs, hr, hk'⟩ := h'.paths f qs hq
    exact ⟨rs, hr, hk'.trans hk⟩
  fresh f hn rs hr r hm := by
    cases hq : t.paths? f with
    | none => exact h'.fresh f hq rs hr r hm
    | some qs =>
      obtain ⟨rs', hr', hk⟩ := h'.paths f qs hq
      obtain rfl : rs' = rs := Option.some.inj (hr'.symm.trans hr)
      have hm : r.kept ∈ qs.map Path.kept := hk ▸ List.mem_map_of_mem hm
      obtain ⟨q, hqm, he⟩ := List.mem_map.mp hm
      exact (congrArg Prod.snd he).symm.trans (h.fresh f hn qs hq q hqm)

theorem paths?_eq_of_id {f g : Function} (h : f.id = g.id) : s.paths? f = s.paths? g := by
  rw [paths?, paths?, h]

theorem retains_of_paths
    (hd : ∀ i, (t.data i).measured? .functionDuration = (s.data i).measured? .functionDuration)
    (hs : ∀ i, ((s.data i).measured? .functionDuration).isSome →
      t.get? i .durationSource = s.get? i .durationSource)
    (hp : ∀ i, t.get? i .paths = s.get? i .paths) : Retains s t where
  durations := hd
  sources := hs
  paths f ps h := ⟨ps, (paths?_congr (hp f.id)).trans h, rfl⟩
  fresh f h qs hq := by
    rw [paths?_congr (hp f.id), h] at hq
    cases hq

end Insights

namespace Analysis

open Run Insights

theorem frame_retains : Frame (Between Retains) := frame_between Retains.refl Retains.trans

theorem tolerates_retains {k : Key} (hk : k ≠ .functionDuration ∧ k ≠ .durationSource ∧ k ≠ .paths)
    (i : NodeId) : Tolerates (Between Retains) i k where
  put s e := retains_of_paths
    (fun _ => InsightData.measured?_congr (s.get?_put_of_ne (.inr hk.1) e))
    (fun _ _ => s.get?_put_of_ne (.inr hk.2.1) e) fun _ => s.get?_put_of_ne (.inr hk.2.2) e
  drop h := by
    obtain h | h := h
    · exact absurd h hk.1
    · exact absurd h hk.2.1

variable {s : State} {call : Artifact} {f : Function}

theorem measured?_put_derived (s : State) (i j : NodeId) {new : Insight} (h : new.derived = true) :
    ((s.put i .functionDuration (.insight new)).insights.data j).measured? .functionDuration =
      (s.insights.data j).measured? .functionDuration := by
  rw [State.put, Insights.data_write]
  split
  · next hi => rw [InsightData.measured?_set_derived _ _ h, hi]
  · rfl

theorem measured?_drop (s : State) (i j : NodeId) (k k' : Key) :
    ((s.drop i k).insights.data j).measured? k' =
      if i = j ∧ k = k' then none else (s.insights.data j).measured? k' := by
  rw [State.drop, Insights.data_write]
  by_cases hi : i = j
  · simp [hi, InsightData.measured?_remove]
  · simp [hi]

theorem retains_storeDuration (call : Artifact) (duration : Int) (source : String) :
    Respects (Between Retains) (storeDuration call duration source) := by
  intro s
  have hd (i : NodeId) := @measured?_put_derived s call.id i (durationInsight duration) rfl
  cases hm : (s.insights.data call.id).measured? .functionDuration with
  | some i =>
    -- The derived duration is refused, and then its source is not stored either.
    obtain ⟨es, hs⟩ := set_apply call.id .functionDuration (.insight (durationInsight duration)) s
    rw [InsightData.set_of_measured? hm rfl] at hs
    rw [show storeDuration call duration source s = (.ok (), _) from bind_of_ok hs _]
    exact retains_of_paths hd (fun i _ => s.get?_put_of_ne (.inr (by decide)) _)
      fun i => s.get?_put_of_ne (.inr (by decide)) _
  | none =>
    obtain ⟨es, hs⟩ := storeDuration_apply (InsightData.measured?_eq_none.mp hm) duration source
    rw [hs]
    refine retains_of_paths (fun i => ?_) (fun i hi => ?_) fun i => ?_
    · exact (InsightData.measured?_congr (State.get?_put_of_ne _ (.inr (by decide)) _)).trans (hd i)
    · have hne : call.id ≠ i := by
        rintro rfl
        rw [hm] at hi
        cases hi
      exact (State.get?_put_of_ne _ (.inl hne) _).trans (s.get?_put_of_ne (.inl hne) _)
    · exact (State.get?_put_of_ne _ (.inr (by decide)) _).trans (s.get?_put_of_ne (.inr (by decide)) _)

theorem retains_dropDerived (call : Artifact) : Respects (Between Retains) (dropDerived call) := by
  intro s
  cases hc : s.insights.duration? call.id with
  | none =>
    rw [dropDerived_of_none hc]
    exact Retains.refl _
  | some i =>
    cases hd : i.derived with
    | false =>
      have hs : dropDerived call s = (.ok (), s) := by
        rw [dropDerived, bind_of_ok (insights_apply s), hc]
        simp only [hd]
        rfl
      rw [hs]
      exact Retains.refl _
    | true =>
      have hm : (s.insights.data call.id).measured? .functionDuration = none := by
        rw [InsightData.measured?_eq_none]
        intro j hj
        obtain rfl : i = j := Option.some.inj (hc.symm.trans hj)
        exact hd
      rw [dropDerived_of_derived hc hd]
      refine retains_of_paths (fun j => ?_) (fun j hj => ?_) fun j => ?_
      · by_cases hj : call.id = j
        · simp [measured?_drop, ← hj, hm]
        · simp [measured?_drop, hj]
      · have hne : call.id ≠ j := by
          rintro rfl
          rw [hm] at hj
          cases hj
        simp [State.get?_drop, hne]
      · simp [State.get?_drop, Key.functionDuration, Key.durationSource, Key.paths]

theorem kept_forgetDerived (p : Path) : (forgetDerived p).kept = p.kept := by
  unfold forgetDerived
  split
  · next i hi =>
    split
    · next hd =>
      have hm : p.data.measured? .pathDuration = none := by
        simp [InsightData.measured?, hi, hd]
      simp [Path.kept, Path.way, InsightData.measured?_remove, hm]
    · rfl
  · rfl

theorem kept_addUp (p : Path) (durations : List Int) : (addUp p durations).kept = p.kept :=
  congrArg (p.way, ·) (p.data.measured?_set_derived _ rfl)

/-- New paths may take the place of none, or of paths from which they differ in what was derived. -/
theorem retains_put_paths {ps : List Path}
    (some : ∀ qs, s.insights.paths? f = some qs → ps.map Path.kept = qs.map Path.kept)
    (none : s.insights.paths? f = none → ∀ p ∈ ps, p.data.measured? .pathDuration = none) :
    Retains s.insights (s.put f.id .paths (.note (.paths ps))).insights where
  durations i := InsightData.measured?_congr (s.get?_put_of_ne (.inr (by decide)) _)
  sources i _ := s.get?_put_of_ne (.inr (by decide)) _
  paths g qs hq := by
    by_cases hg : f.id = g.id
    · rw [← paths?_eq_of_id hg] at hq ⊢
      exact ⟨ps, s.paths?_put f ps, some qs hq⟩
    · exact ⟨qs, (paths?_congr (s.get?_put_of_ne (.inl hg) _)).trans hq, rfl⟩
  fresh g hn qs hq := by
    by_cases hg : f.id = g.id
    · rw [← paths?_eq_of_id hg] at hn hq
      rw [s.paths?_put f ps] at hq
      cases hq
      exact none hn
    · rw [paths?_congr (s.get?_put_of_ne (.inl hg) _), hn] at hq
      cases hq

theorem retains_pathsOf (forest : Forest) (f : Function) :
    Respects (Between Retains) (pathsOf forest f) := by
  intro s
  obtain ⟨ps, -, h⟩ | ⟨hn, ⟨e, c, -, h⟩ | ⟨ps, c, es, hps, h⟩⟩ := pathsOf_cases forest f s <;> rw [h]
  · exact Retains.refl _
  · exact Retains.refl _
  · refine retains_put_paths (fun qs hq => ?_) fun _ p hp => ?_
    · rw [hn] at hq
      cases hq
    · rw [Path.bare_of_enumerate hps p hp]
      rfl

theorem map_kept_updated {ps : List Path} {ds : List (List Int)} (h : ps.length = ds.length) :
    (if ds.all List.isEmpty then ps.map forgetDerived else ps.zipWith addUp ds).map Path.kept =
      ps.map Path.kept := by
  split
  · simp [kept_forgetDerived]
  · clear * - h
    induction ps generalizing ds with
    | nil => rfl
    | cons p ps ih =>
      obtain _ | ⟨d, ds⟩ := ds
      · cases h
      · simp [kept_addUp, ih (Nat.succ.inj h)]

theorem retains_pathDurations (f : Function) : Respects (Between Retains) (pathDurations f) := by
  intro s
  obtain ⟨-, h⟩ | ⟨ps, hps, ⟨e, -, h⟩ | ⟨ds, es, hds, h⟩⟩ := pathDurations_cases f s <;> rw [h]
  · exact Retains.refl _
  · exact Retains.refl _
  · refine retains_put_paths (fun qs hq => ?_) fun hn => ?_
    · obtain rfl : ps = qs := Option.some.inj (hps.symm.trans hq)
      exact map_kept_updated (forall₂_of_mapM hds).length_eq
    · rw [hps] at hn
      cases hn

theorem writes_retains (setup : Setup) (task : Task) : task.Writes Retains setup where
  paths g _ := retains_pathsOf setup.forest g
  store call _ _ := retains_storeDuration call
  drop call _ _ := retains_dropDerived call
  sums f _ _ := retains_pathDurations f

theorem step_retains (setup : Setup) (m : Moment) :
    Retains m.state.insights (step setup m).state.insights := by
  refine step_between frame_retains (fun i k hk => tolerates_retains ?_ i) fun task _ _ _ =>
    writes_retains setup task
  obtain rfl | rfl | rfl := hk <;> decide

theorem moment_retains (setup : Setup) (insights : Insights) (clock : Clock) (a : Artifact) (n : Nat) :
    Retains insights (moment setup insights clock a n).state.insights := by
  induction n with
  | zero => exact Retains.refl insights
  | succ n ih =>
    rw [moment_succ]
    exact ih.trans (step_retains setup _)

theorem analyze_retains (setup : Setup) (sound : setup.forest.Sound) (insights : Insights)
    {a : Artifact} (ha : setup.forest.Holds a) :
    Retains insights (analyze setup insights a).insights := by
  cases hc : Clock.forLimit setup.settings.maxTicks with
  | error e =>
    rw [analyze, hc]
    exact Retains.refl insights
  | ok clock =>
    obtain ⟨n, -, h⟩ := exists_moment_eq_analyze sound insights ha hc
    rw [← h]
    exact moment_retains setup insights clock a n

/-- What is known before and after an analysis of some forest, with any configuration, store, detector
and passes. It may have completed or failed, or it may have been stopped at any moment. -/
inductive Analyzed : Insights → Insights → Prop
  | ended (setup : Setup) (sound : setup.forest.Sound) (a : Artifact) (held : setup.forest.Holds a)
    (s : Insights) : Analyzed s (analyze setup s a).insights
  | stopped (setup : Setup) (clock : Clock) (a : Artifact) (n : Nat) (s : Insights) :
    Analyzed s (moment setup s clock a n).state.insights

theorem Analyzed.retains {s t : Insights} (h : Analyzed s t) : Retains s t := by
  cases h with
  | ended setup sound a held => exact analyze_retains setup sound s held
  | stopped setup clock a n => exact moment_retains setup s clock a n

open Relation

theorem retains_of_analyzed {s t : Insights} (h : ReflTransGen Analyzed s t) : Retains s t := by
  induction h with
  | refl => exact Retains.refl s
  | tail _ h ih => exact ih.trans h.retains

/-- After any sequence of analyses the measured durations of nodes are the ones there were before, and
the source of a measured duration is as it was. Cached paths go the same way, and their measured
durations are the ones they had. -/
theorem measured_outlasts {s t : Insights} (h : ReflTransGen Analyzed s t) :
    (∀ i m, m.derived = false →
      ((t.duration? i = some m ↔ s.duration? i = some m) ∧
        (s.duration? i = some m → t.get? i .durationSource = s.get? i .durationSource))) ∧
      ∀ f ps, s.paths? f = some ps → ∃ qs, t.paths? f = some qs ∧
        List.Forall₂ (fun p q => q.function = p.function ∧ q.conditions = p.conditions ∧
          q.artifacts = p.artifacts ∧ ∀ m, m.derived = false →
            (q.data.insight? .pathDuration = some m ↔ p.data.insight? .pathDuration = some m)) ps qs := by
  have hr := retains_of_analyzed h
  refine ⟨fun i m hd => ⟨?_, fun hi => hr.sources i ?_⟩, fun f ps hps => ?_⟩
  · rw [duration?, duration?, InsightData.insight?_iff_measured? hd,
      InsightData.insight?_iff_measured? hd, hr.durations]
  · rw [(InsightData.insight?_iff_measured? hd).mp hi]
    rfl
  · obtain ⟨qs, hqs, hk⟩ := hr.paths f ps hps
    refine ⟨qs, hqs, (Path.forall₂_kept hk).imp fun p q h => ?_⟩
    obtain ⟨hf, hc, ha, hdata⟩ := Path.kept_eq_iff.mp h
    refine ⟨hf, hc, ha, fun m hd => ?_⟩
    rw [InsightData.insight?_iff_measured? hd, InsightData.insight?_iff_measured? hd, hdata]

theorem functions_pingPong : (Session.start pingPong {}).functions ≠ [] :=
  List.isEmpty_eq_false_iff.mp (by decide +kernel)

def ping : Function := (Session.start pingPong {}).functions.head functions_pingPong

/-- The call of `pong` was measured, and so was the only path of `ping`. -/
def clocked : Insights :=
  (({} : Insights).write 0
    ⟨⟨[(.functionDuration, .insight ⟨.functionDuration, .int 7, false⟩)]⟩⟩).write ping.id
    ⟨⟨[(.paths, .note (.paths [{
      function := ping
      data := ⟨⟨[(.pathDuration, .insight ⟨.pathDuration, .int 11, false⟩)]⟩⟩ }]))]⟩⟩

/-- The analysis of the module, with telemetry that says otherwise about `pong`. -/
def pingPongRun (maxTicks : Value) (insights : Insights) : Outcome :=
  analyze {
    forest := (Session.start pingPong {}).forest
    durations := ⟨⟨[("pong", .int 3)]⟩⟩
    settings := { maxTicks } } insights (Session.start pingPong {}).module

theorem analyzed_pingPong (maxTicks : Value) (insights : Insights) :
    Analyzed insights (pingPongRun maxTicks insights).insights := by
  have hs := Session.sound_start pingPong {}
  rw [pingPongRun]
  generalize Session.start pingPong {} = session at hs ⊢
  exact .ended _ hs.1 _ hs.2 insights

/-- One analysis goes through, the next one is stopped by its budget. -/
theorem pingPong_measured_outlasts :
    ReflTransGen Analyzed clocked
        (pingPongRun (.int 5) (pingPongRun .null clocked).insights).insights ∧
      (pingPongRun .null clocked).result = .ok none ∧
      (pingPongRun (.int 5) (pingPongRun .null clocked).insights).result = .error (.exhausted 6 5) ∧
      clocked.duration? 0 = some ⟨.functionDuration, .int 7, false⟩ ∧
      (pingPongRun (.int 5) (pingPongRun .null clocked).insights).insights.duration? 0 =
        some ⟨.functionDuration, .int 7, false⟩ ∧
      ∃ q, (pingPongRun (.int 5) (pingPongRun .null clocked).insights).insights.paths? ping = some [q] ∧
        q.data.insight? .pathDuration = some ⟨.pathDuration, .int 11, false⟩ := by
  have h := ReflTransGen.tail (.single (analyzed_pingPong .null clocked)) (analyzed_pingPong (.int 5) _)
  have hb : clocked.duration? 0 = some ⟨.functionDuration, .int 7, false⟩ := by cbv
  have hr : (fun first => (first.result, (pingPongRun (.int 5) first.insights).result))
      (pingPongRun .null clocked) = (.ok none, .error (.exhausted 6 5)) := by cbv
  obtain ⟨hr, hr'⟩ := Prod.mk.inj hr
  have hp : clocked.paths? ping = some [{
      function := ping
      data := ⟨⟨[(.pathDuration, .insight ⟨.pathDuration, .int 11, false⟩)]⟩⟩ }] := by
    rw [clocked, paths?, data_write, if_pos rfl]
    rfl
  obtain ⟨hnodes, hpaths⟩ := measured_outlasts h
  obtain ⟨qs, hqs, hall⟩ := hpaths ping _ hp
  refine ⟨h, hr, hr', hb, (hnodes 0 _ rfl).1.mpr hb, ?_⟩
  generalize ping = f at hqs hall ⊢
  generalize pingPongRun (.int 5) (pingPongRun .null clocked).insights = last at hqs ⊢
  obtain ⟨q, _, ⟨-, -, -, hq⟩, ⟨⟩, rfl⟩ := List.forall₂_cons_left_iff.mp hall
  exact ⟨q, hqs, (hq _ rfl).mpr rfl⟩

end Analysis

end CallTime

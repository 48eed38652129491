import Mathlib
import CallTime.Proofs.Measured
import CallTime.Report.Build

/-!
Where the durations in a report come from.

A call keeps the source of its duration beside the duration. Analyses write both and take both back, and
telemetry writes the duration only. Main statement: over any history of analyses and telemetry, a call
is labelled as measured if and only if its duration was measured or was last written from the measured
duration of the function it calls, unless telemetry was written over an estimate: then the source of the
estimate stays.
-/

namespace CallTime

inductive DurationWrite where
  | telemetry
  /-- An analysis found the called function measured. -/
  | override
  /-- An analysis took the mean over paths. -/
  | estimate
  /-- An analysis took a derived duration back. -/
  | dropped
  deriving DecidableEq

namespace DurationWrite

/-- Whether there is a duration afterwards and if so, whether it is derived. -/
def derived? : Option DurationWrite → Option Bool
  | some .telemetry => some false
  | some .override | some .estimate => some true
  | some .dropped | none => none

def source? : Option DurationWrite → Option String
  | some .override => some "measured"
  | some .estimate => some "paths"
  | _ => none

def latestOther (ws : List DurationWrite) : Option DurationWrite :=
  (ws.dropWhile (· = .telemetry)).head?

def Stale (ws : List DurationWrite) : Prop :=
  ws.head? = some .telemetry ∧ latestOther ws = some .estimate

end DurationWrite

open DurationWrite

namespace Insights

def measure (s : Insights) (i : NodeId) (m : Insight) : Insights :=
  s.write i ((s.data i).set .functionDuration (.insight m)).1

/-- The duration of the node and its source are as the writes left them, the latest write first. -/
structure Records (s : Insights) (i : NodeId) (ws : List DurationWrite) : Prop where
  duration : (s.duration? i).map Insight.derived = derived? ws.head?
  source : s.get? i .durationSource =
    (source? (latestOther ws)).map fun word => .note (.value (.str word))

theorem records_empty (i : NodeId) : ({} : Insights).Records i [] := by
  constructor
  · rw [duration?_of_get? (get?_empty i _)]
    rfl
  · exact get?_empty i _

variable {s t : Insights} {i : NodeId} {ws : List DurationWrite}

theorem Records.congr (h : s.Records i ws)
    (hd : t.get? i .functionDuration = s.get? i .functionDuration)
    (hs : t.get? i .durationSource = s.get? i .durationSource) : t.Records i ws := by
  constructor
  · rw [duration?_congr hd]
    exact h.duration
  · rw [hs]
    exact h.source

theorem duration?_measure (s : Insights) (i : NodeId) {m : Insight} (hm : m.derived = false) :
    (s.measure i m).duration? i = some m := by
  have hb : Entry.blocker? ((s.data i).get? .functionDuration) (.insight m) = none := by
    cases (s.data i).get? .functionDuration with
    | none => rfl
    | some e =>
      cases e with
      | insight j => simp [Entry.blocker?, hm]
      | note n => rfl
  rw [duration?, measure, data_write, if_pos rfl, InsightData.set, hb]
  simp [InsightData.insight?, InsightData.get?, Entry.insight?]

theorem get?_measure_of_ne (s : Insights) {i j : NodeId} {k : Key}
    (h : i ≠ j ∨ .functionDuration ≠ k) (m : Insight) : (s.measure i m).get? j k = s.get? j k :=
  Analysis.State.get?_put_of_ne ⟨s, .unbounded 0, [], #[]⟩ h (.insight m)

theorem Records.measure (h : s.Records i ws) {m : Insight} (hm : m.derived = false) :
    (s.measure i m).Records i (.telemetry :: ws) := by
  constructor
  · rw [duration?_measure s i hm, Option.map_some, hm]
    rfl
  · rw [get?_measure_of_ne s (.inr (by decide))]
    exact h.source

def SameDurations (s t : Insights) : Prop :=
  ∀ i k, k = .functionDuration ∨ k = .durationSource → t.get? i k = s.get? i k

theorem Records.same (h : s.Records i ws) (hst : SameDurations s t) : t.Records i ws :=
  h.congr (hst i _ (.inl rfl)) (hst i _ (.inr rfl))

end Insights

namespace Analysis

open Run Insights

theorem frame_sameDurations : Frame (Between SameDurations) :=
  frame_between (fun _ _ _ _ => rfl) fun h h' i k hk => (h' i k hk).trans (h i k hk)

theorem tolerates_sameDurations (i : NodeId) {k : Key}
    (hk : k ≠ .functionDuration ∧ k ≠ .durationSource) : Tolerates (Between SameDurations) i k where
  put s e j k' hk' := by
    refine s.get?_put_of_ne (.inr ?_) e
    rintro rfl
    exact hk'.elim hk.1 hk.2
  drop h := (h.elim hk.1 hk.2).elim

inductive Verdict where
  | override (measured : Int)
  | estimate (mean : Int)
  | unknown

def verdict (setup : Setup) (call : Artifact) (g : Function) : Run Verdict := do
  let estimated ← estimate setup.forest call g
  match ← measuredDuration setup.durations (← Run.insights) g, estimated with
  | some measured, _ => return .override measured
  | none, some mean => return .estimate mean
  | none, none => return .unknown

namespace Verdict

def apply (call : Artifact) : Verdict → Run Unit
  | .override measured => storeDuration call measured "measured"
  | .estimate mean => storeDuration call mean "paths"
  | .unknown => dropDerived call

/-- What this does to the duration of the call, if anything. It depends on whether the call has a derived
duration: a measured one stays. -/
def write? : Verdict → (derived : Option Bool) → Option DurationWrite
  | _, some false => none
  | .override _, _ => some .override
  | .estimate _, _ => some .estimate
  | .unknown, some true => some .dropped
  | .unknown, none => none

end Verdict

theorem settle_eq (setup : Setup) (call : Artifact) (g : Function) :
    settle setup call g = verdict setup call g >>= Verdict.apply call := by
  simp only [settle, verdict, bind_assoc]
  congr
  funext estimated
  congr
  funext insights
  congr
  funext measured
  cases measured with
  | some measured => rfl
  | none => cases estimated <;> rfl

theorem sameDurations_verdict (setup : Setup) (call : Artifact) (g : Function) :
    Respects (Between SameDurations) (verdict setup call g) := by
  have F := frame_sameDurations
  refine respects_bind F (respects_estimate F _ call (respects_pathsOf F _
    (tolerates_sameDurations g.id (by decide)))) fun estimated => ?_
  refine respects_bind F (respects_insights F) fun _ => ?_
  refine respects_bind F (respects_lift F _) fun measured => ?_
  cases measured with
  | some measured => exact respects_pure F _
  | none => cases estimated <;> exact respects_pure F _

variable {s : State} {call : Artifact}

/-- A measured duration keeps what an analysis derives out, and the source of that too. -/
theorem sameDurations_of_measured (v : Verdict)
    (h : (s.insights.duration? call.id).map Insight.derived = some false) :
    SameDurations s.insights (v.apply call s).2.insights := by
  obtain ⟨m, hm, hd⟩ := Option.map_eq_some_iff.mp h
  have hstore (duration : Int) (source : String) :
      SameDurations s.insights (storeDuration call duration source s).2.insights := by
    obtain ⟨es, hs⟩ := set_apply call.id .functionDuration (.insight (durationInsight duration)) s
    have hset : (s.insights.data call.id).set .functionDuration (.insight (durationInsight duration)) =
        (s.insights.data call.id, false) :=
      InsightData.set_of_measured? (InsightData.measured?_eq_some.mpr ⟨hm, hd⟩) rfl
    rw [hset] at hs
    rw [show storeDuration call duration source s = (.ok (), _) from bind_of_ok hs _]
    intro i k _
    simp only [State.put, hset, Insights.get?, data_write]
    split
    · next hi => rw [hi]
    · rfl
  cases v with
  | override measured => exact hstore measured "measured"
  | estimate mean => exact hstore mean "paths"
  | unknown =>
    have hs : dropDerived call s = (.ok (), s) := by
      rw [dropDerived, bind_of_ok (insights_apply s), hm]
      simp only [hd]
      rfl
    intro i k _
    rw [Verdict.apply, hs]

theorem apply_of_ne (v : Verdict) {i : NodeId} (hi : call.id ≠ i) (k : Key) :
    (v.apply call s).2.insights.get? i k = s.insights.get? i k := by
  have hT (k' : Key) : Tolerates (Spares fun j _ => j = call.id) call.id k' := tolerates_spares rfl
  have h : Respects (Spares fun j _ => j = call.id) (v.apply call) := by
    cases v with
    | override measured => exact respects_storeDuration frame_spares (hT _) (hT _) measured "measured"
    | estimate mean => exact respects_storeDuration frame_spares (hT _) (hT _) mean "paths"
    | unknown => exact respects_dropDerived frame_spares (hT _) (hT _)
  exact h s i k hi.symm

theorem records_storeDuration {ws : List DurationWrite} (duration : Int) {w : DurationWrite}
    {word : String} (hw : source? (some w) = some word)
    (hd : (s.insights.duration? call.id).map Insight.derived ≠ some false) :
    (storeDuration call duration word s).2.insights.Records call.id (w :: ws) := by
  have hderived : ∀ m, s.insights.duration? call.id = some m → m.derived = true := by
    intro m hm
    rw [hm, Option.map_some] at hd
    simpa using hd
  have hlatest : latestOther (w :: ws) = some w ∧ derived? (some w) = some true := by
    cases w <;> first | exact ⟨rfl, rfl⟩ | cases hw
  obtain ⟨es, hs⟩ := storeDuration_apply hderived duration word
  rw [hs]
  constructor
  · have hget : ((s.put call.id .functionDuration (.insight (durationInsight duration))).put call.id
        .durationSource (.note (.value (.str word)))).insights.get? call.id .functionDuration =
          some (.insight (durationInsight duration)) := by
      rw [State.get?_put_of_ne _ (.inr (by decide)), s.get?_put_insight hderived]
    change (Insights.duration? _ call.id).map _ = _
    rw [duration?_of_get? hget, List.head?_cons, hlatest.2]
    rfl
  · rw [State.get?_put_note, hlatest.1, hw]
    rfl

theorem records_dropDerived {ws : List DurationWrite}
    (hd : (s.insights.duration? call.id).map Insight.derived = some true) :
    (dropDerived call s).2.insights.Records call.id (.dropped :: ws) := by
  obtain ⟨m, hm, hm'⟩ := Option.map_eq_some_iff.mp hd
  rw [dropDerived_of_derived hm hm']
  constructor
  · have hget : ((s.drop call.id .functionDuration).drop call.id .durationSource).insights.get?
        call.id .functionDuration = none := by
      rw [State.get?_drop, State.get?_drop]
      simp
    rw [duration?_of_get? hget]
    rfl
  · rw [State.get?_drop, if_pos ⟨rfl, rfl⟩]
    rfl

theorem records_apply (v : Verdict) {ws : List DurationWrite}
    (h : s.insights.Records call.id ws) :
    (v.apply call s).2.insights.Records call.id
      ((v.write? ((s.insights.duration? call.id).map Insight.derived)).toList ++ ws) := by
  rcases hd : (s.insights.duration? call.id).map Insight.derived with _ | _ | _
  · have hne : (s.insights.duration? call.id).map Insight.derived ≠ some false := by simp [hd]
    cases v with
    | override measured => exact records_storeDuration measured rfl hne
    | estimate mean => exact records_storeDuration mean rfl hne
    | unknown =>
      rw [Verdict.apply, dropDerived_of_none (Option.map_eq_none_iff.mp hd)]
      exact h
  · exact h.same (sameDurations_of_measured v hd)
  · have hne : (s.insights.duration? call.id).map Insight.derived ≠ some false := by simp [hd]
    cases v with
    | override measured => exact records_storeDuration measured rfl hne
    | estimate mean => exact records_storeDuration mean rfl hne
    | unknown => exact records_dropDerived hd

def Moment.write? (setup : Setup) (m : Moment) : Option (NodeId × DurationWrite) :=
  match m.tasks, m.fault with
  | .settle call g :: _, none => match verdict setup call g m.state with
    | (.ok v, _) =>
      (v.write? ((m.state.insights.duration? call.id).map Insight.derived)).map (call.id, ·)
    | (.error _, _) => none
  | _, _ => none

def writesAt (i : NodeId) (log : List (NodeId × DurationWrite)) : List DurationWrite :=
  log.filterMap fun w => if w.1 = i then some w.2 else none

def Recorded (s : Insights) (log : List (NodeId × DurationWrite)) : Prop :=
  ∀ i, s.Records i (writesAt i log)

theorem writesAt_append (i : NodeId) (log log' : List (NodeId × DurationWrite)) :
    writesAt i (log ++ log') = writesAt i log ++ writesAt i log' :=
  List.filterMap_append

theorem writesAt_map (i j : NodeId) (w : Option DurationWrite) :
    writesAt i (w.map (j, ·)).toList = if j = i then w.toList else [] := by
  cases w with
  | none => simp [writesAt]
  | some w => by_cases h : j = i <;> simp [writesAt, h]

theorem Recorded.same {s t : Insights} {log : List (NodeId × DurationWrite)} (h : Recorded s log)
    (hst : SameDurations s t) : Recorded t log :=
  fun i => (h i).same hst

theorem sameDurations_perform (setup : Setup) {task : Task} (ht : ∀ call g, task ≠ .settle call g) :
    Respects (Between SameDurations) (task.perform setup) := by
  have F := frame_sameDurations
  refine respects_perform_between F (fun i k hk => tolerates_sameDurations i ?_) ⟨fun g _ => ?_,
    fun call g h => absurd h (ht call g), fun call g h => absurd h (ht call g), fun f _ _ => ?_⟩
  · obtain rfl | rfl | rfl := hk <;> decide
  · exact respects_pathsOf F _ (tolerates_sameDurations g.id (by decide))
  · exact respects_pathDurations F (tolerates_sameDurations f.id (by decide))

theorem recorded_settle (setup : Setup) {log : List (NodeId × DurationWrite)} (call : Artifact)
    (g : Function) (tasks : List Task) (h : Recorded s.insights log) :
    Recorded (settle setup call g s).2.insights
      ((Moment.write? setup ⟨s, none, .settle call g :: tasks⟩).toList ++ log) := by
  have hv := sameDurations_verdict setup call g s
  rw [settle_eq, bind_apply]
  simp only [Moment.write?]
  rcases hr : verdict setup call g s with ⟨e | v, t⟩ <;> rw [hr] at hv
  · exact h.same hv
  · intro i
    simp only [writesAt_append, writesAt_map]
    by_cases hi : call.id = i
    · subst hi
      rw [if_pos rfl, ← duration?_congr (hv call.id _ (.inl rfl))]
      exact records_apply v ((h call.id).same hv)
    · rw [if_neg hi, List.nil_append]
      exact ((h i).same hv).congr (apply_of_ne v hi _) (apply_of_ne v hi _)

theorem step_recorded {setup : Setup} {m : Moment} {log : List (NodeId × DurationWrite)}
    (h : Recorded m.state.insights log) :
    Recorded (step setup m).state.insights ((m.write? setup).toList ++ log) := by
  obtain ⟨s, fault, tasks⟩ := m
  cases tasks with
  | nil => exact h
  | cons task tasks =>
    cases fault with
    | some e => cases task <;> exact h
    | none =>
      by_cases hs : ∃ call g, task = .settle call g
      · obtain ⟨call, g, rfl⟩ := hs
        have hset := recorded_settle setup call g tasks h
        simp only [step, Task.perform, bind_apply]
        rcases hp : settle setup call g s with ⟨e | _, t⟩ <;> rw [hp] at hset <;> exact hset
      · have ht : ∀ call g, task ≠ .settle call g := fun call g ht => hs ⟨call, g, ht⟩
        have hsame := sameDurations_perform setup ht s
        have hw : Moment.write? setup ⟨s, none, task :: tasks⟩ = none := by
          cases task with
          | settle call g => exact absurd rfl (ht call g)
          | _ => rfl
        rw [hw]
        simp only [step]
        rcases hp : task.perform setup s with ⟨e | next, t⟩ <;> rw [hp] at hsame <;> exact h.same hsame

/-- The writes of the first `n` steps of an analysis, the latest first. -/
def writes (setup : Setup) (insights : Insights) (clock : Clock) (a : Artifact) :
    Nat → List (NodeId × DurationWrite)
  | 0 => []
  | n + 1 => ((moment setup insights clock a n).write? setup).toList ++ writes setup insights clock a n

theorem moment_recorded {setup : Setup} {insights : Insights} {log : List (NodeId × DurationWrite)}
    (h : Recorded insights log) (clock : Clock) (a : Artifact) (n : Nat) :
    Recorded (moment setup insights clock a n).state.insights
      (writes setup insights clock a n ++ log) := by
  induction n with
  | zero => exact h
  | succ n ih =>
    rw [moment_succ, writes, List.append_assoc]
    exact step_recorded ih

/-- What is known after some analyses and some telemetry, with the writes to durations on the way, the
latest first. The analyses are of any node, with any store, settings, detector and passes, and they may
have been cut short. -/
inductive History (forest : Forest) : Insights → List (NodeId × DurationWrite) → Prop
  | start : History forest {} []
  | telemetry {s : Insights} {log : List (NodeId × DurationWrite)} (h : History forest s log)
    {call : Artifact} (held : forest.Holds call) (hc : call.isCall = true) {m : Insight}
    (hm : m.derived = false) :
    History forest (s.measure call.id m) ((call.id, .telemetry) :: log)
  | analysis {s : Insights} {log : List (NodeId × DurationWrite)} (h : History forest s log)
    {setup : Setup} (hf : setup.forest = forest) {a : Artifact} (held : forest.Holds a) {clock : Clock}
    (hc : Clock.forLimit setup.settings.maxTicks = .ok clock) {n : Nat}
    (hn : (moment setup s clock a n).tasks = []) :
    History forest (analyze setup s a).insights (writes setup s clock a n ++ log)

theorem moment_eq_analyze {setup : Setup} (sound : setup.forest.Sound) {insights : Insights}
    {a : Artifact} (ha : setup.forest.Holds a) {clock : Clock}
    (hc : Clock.forLimit setup.settings.maxTicks = .ok clock) {n : Nat}
    (hn : (moment setup insights clock a n).tasks = []) :
    (moment setup insights clock a n).outcome a = analyze setup insights a := by
  obtain ⟨k, hk, he⟩ := exists_moment_eq_analyze sound insights ha hc
  have hnk : moment setup insights clock a n = moment setup insights clock a k := by
    rcases Nat.le_total n k with h | h
    · exact (moment_of_le hn h).symm
    · exact moment_of_le hk h
  rw [hnk, he]

theorem History.exists_analysis {setup : Setup} (sound : setup.forest.Sound) {s : Insights}
    {log : List (NodeId × DurationWrite)} (h : History setup.forest s log) {a : Artifact}
    (ha : setup.forest.Holds a) {clock : Clock}
    (hc : Clock.forLimit setup.settings.maxTicks = .ok clock) :
    ∃ log', History setup.forest (analyze setup s a).insights log' := by
  obtain ⟨n, hn, -⟩ := exists_moment_eq_analyze sound s ha hc
  exact ⟨_, h.analysis rfl ha hc hn⟩

theorem History.recorded {forest : Forest} (sound : forest.Sound) {s : Insights}
    {log : List (NodeId × DurationWrite)} (h : History forest s log) : Recorded s log := by
  induction h with
  | start => exact records_empty
  | @telemetry s log _ call _ _ m hm ih =>
    intro i
    change Records _ i (writesAt i ([(call.id, _)] ++ log))
    rw [writesAt_append, show [(call.id, DurationWrite.telemetry)] =
      (Option.map (call.id, ·) (some DurationWrite.telemetry)).toList from rfl, writesAt_map]
    by_cases hi : call.id = i
    · subst hi
      rw [if_pos rfl]
      exact (ih call.id).measure hm
    · rw [if_neg hi]
      exact (ih i).congr (get?_measure_of_ne s (.inl hi) m) (get?_measure_of_ne s (.inl hi) m)
  | @analysis s log _ setup hf a held clock hc n hn ih =>
    subst hf
    rw [← moment_eq_analyze sound held hc hn]
    exact moment_recorded ih clock a n

end Analysis

theorem Report.callLine_eq_labelled (r : Report) (c : CallEntry) :
    r.callLine c = .ok (r.labelled c "measured") ↔ c.source = some "measured" ∧ c.printable = true := by
  rw [callLine_eq]
  by_cases hp : c.printable = true
  · by_cases h : c.source = some "measured"
    · simp [hp, h]
    · simp [hp, h, labelled]
  · simp [hp]

namespace CallEntry

open Analysis

variable {forest : Forest} {s : Insights} {f : Function} {call : Artifact} {d : Insight}

def listed (s : Insights) (f : Function) : List Artifact :=
  f.body.walk.filter fun a => a.isCall && (s.duration? a.id).isSome

theorem forall₂_all {entries : List CallEntry} (h : all forest s f = .ok entries) :
    List.Forall₂ (fun call c => ∃ d name, s.duration? call.id = some d ∧
      make forest s f call name d = .ok c) (listed s f) entries := by
  unfold all at h
  replace h := forall₂_of_mapM h
  unfold listed
  generalize f.body.walk = as at h ⊢
  induction as generalizing entries with
  | nil =>
    cases h
    exact .nil
  | cons a as ih =>
    cases a with
    | call info name arguments target =>
      cases hd : s.duration? info.id with
      | none =>
        rw [List.filterMap_cons_none (by simp only [hd, Option.map_none])] at h
        rw [List.filter_cons_of_neg (by simp [Artifact.id, Artifact.info, hd])]
        exact ih h
      | some d =>
        rw [List.filterMap_cons_some (b := (.call info name arguments target, name, d))
          (by simp only [hd, Option.map_some])] at h
        rw [List.filter_cons_of_pos (by simp [Artifact.isCall, Artifact.id, Artifact.info, hd])]
        obtain ⟨c, rest, hc, hrest, rfl⟩ := List.forall₂_cons_left_iff.mp h
        exact .cons ⟨d, name, hd, hc⟩ (ih hrest)
    | _ => exact ih h

theorem source_of_make {name : Option String} {c : CallEntry} {word : String}
    (h : make forest s f call name d = .ok c) (hs : sourceOf s call d = .str word) :
    c.source = some word := by
  obtain ⟨value, -, h⟩ := ok_of_bind h
  have htext : Field.text? (.str word) = some word := Text.string?_ofString word
  simp only [hs, Field.nullable?, htext] at h
  cases h
  rfl

theorem sourceOf_of_records {ws : List DurationWrite} (h : s.Records call.id ws) (d : Insight) :
    sourceOf s call d =
      .str ((source? (latestOther ws)).getD (if d.derived then "paths" else "measured")) := by
  unfold sourceOf
  rw [Insights.durationSource?_of_get? h.source]
  cases source? (latestOther ws) with
  | none => cases d.derived <;> rfl
  | some word => rfl

theorem label_iff {ws : List DurationWrite} (hd : derived? ws.head? = some d.derived) :
    (source? (latestOther ws)).getD (if d.derived then "paths" else "measured") = "measured" ↔
      (d.derived = false ∨ ws.head? = some .override) ∧ ¬Stale ws := by
  cases ws with
  | nil => cases hd
  | cons w ws =>
    cases w with
    | telemetry =>
      have hm : d.derived = false := (Option.some.inj hd).symm
      have hl : latestOther (.telemetry :: ws) = latestOther ws := by simp [latestOther]
      rw [Stale, hl, hm]
      rcases latestOther ws with _ | _ | _ | _ | _ <;> simp [source?]
    | override =>
      simp [latestOther, source?, Stale]
    | estimate =>
      have hm : d.derived = true := (Option.some.inj hd).symm
      simp [latestOther, source?, hm]
    | dropped => cases hd

/-- Over any history, each call that has a duration is listed in order, and it is labelled as measured if
and only if its duration was measured or was last written by the override, and no telemetry was written
over an estimate. So it is in the lines of every report; a line with a number of too many digits cannot be
written. -/
theorem measured_label_iff (sound : forest.Sound) {log : List (NodeId × DurationWrite)}
    (h : History forest s log) (f : Function) {entries : List CallEntry}
    (he : all forest s f = .ok entries) :
    List.Forall₂ (fun call c => ∃ d, s.duration? call.id = some d ∧
      (d.derived = false ↔ (writesAt call.id log).head? = some .telemetry) ∧
      (c.source = some "measured" ↔
        (d.derived = false ∨ (writesAt call.id log).head? = some .override) ∧
          ¬Stale (writesAt call.id log)) ∧
      ∀ r : Report,
        (r.callLine c = .ok (r.labelled c "measured") ↔ c.source = some "measured" ∧ c.printable) ∧
        (c.printable = false → r.callLine c = .error .wrongValue))
      (listed s f) entries := by
  refine (forall₂_all he).imp fun call c hc => ?_
  obtain ⟨d, name, hd, hmake⟩ := hc
  have hrec := h.recorded sound call.id
  have hderived := hrec.duration
  rw [hd, Option.map_some] at hderived
  refine ⟨d, hd, ?_, ?_, fun r => ⟨r.callLine_eq_labelled c, fun hp => ?_⟩⟩
  · cases hw : (writesAt call.id log).head? with
    | none => simp [hw, derived?] at hderived
    | some w => cases w <;> simp_all [derived?]
  · rw [source_of_make hmake (sourceOf_of_records hrec d), Option.some.injEq]
    exact label_iff hderived.symm
  · rw [Report.callLine_eq, hp]
    rfl

def delegating : List Draft :=
  [.defining "main" [] [.calling "wrap" []], .defining "wrap" [] [.calling "slow" []],
    .defining "slow" [] []]

/-- The setup for a session, with telemetry for `slow`. -/
def slowSetup (s : Session) : Setup where
  forest := s.forest
  durations := ⟨⟨[("slow", .int 5)]⟩⟩

theorem exists_history {s : Session} (h : s.forest.Sound ∧ s.forest.Holds s.module) :
    ∃ log, History s.forest (Analysis.analyze (slowSetup s) {} s.module).insights log := by
  have hc : Clock.forLimit (slowSetup s).settings.maxTicks = .ok (.unbounded 0) := rfl
  exact History.exists_analysis h.1 .start h.2 hc

def delegatingForest : Forest := (Session.start delegating {}).forest

def callOfWrap : Artifact := .call ⟨0, none⟩ (some "wrap") [] (some "wrap")

def delegatingMain : Function := ⟨⟨2, none⟩, "main", "main", [], .block ⟨1, none⟩ [callOfWrap]⟩

def callOfSlow : Artifact := .call ⟨3, none⟩ (some "slow") [] (some "slow")

def delegatingWrap : Function := ⟨⟨5, none⟩, "wrap", "wrap", [], .block ⟨4, none⟩ [callOfSlow]⟩

def delegated : Insights :=
  (Analysis.analyze (slowSetup (Session.start delegating {})) {}
    (Session.start delegating {}).module).insights

/-- What is known after the call of `wrap` was measured then. -/
def delegatedMeasured : Insights := delegated.measure callOfWrap.id ⟨.functionDuration, .int 7, false⟩

theorem history_delegated :
    delegatingForest.Sound ∧ ∃ log, History delegatingForest delegated log := by
  have hs := Session.sound_start delegating {}
  rw [delegatingForest, delegated]
  exact ⟨hs.1, exists_history hs⟩

/-- The call of `slow` is labelled as measured, and this is due to the override. -/
theorem delegated_label :
    ∃ log, History delegatingForest delegated log ∧
      ∃ c, all delegatingForest delegated delegatingWrap = .ok [c] ∧
        c.source = some "measured" ∧ (writesAt callOfSlow.id log).head? = some .override := by
  obtain ⟨sound, log, h⟩ := history_delegated
  have hall : all delegatingForest delegated delegatingWrap = .ok [{
      function := some "wrap"
      callee := some "slow"
      resolved := some "slow"
      duration := { type := "function_duration", value := 5, derived := true }
      source := some "measured" }] := by cbv
  have hlisted : listed delegated delegatingWrap = [callOfSlow] := by cbv
  have hduration : delegated.duration? callOfSlow.id = some ⟨.functionDuration, .int 5, true⟩ := by
    cbv
  have hiff := measured_label_iff sound h delegatingWrap hall
  rw [hlisted] at hiff
  obtain ⟨d, hd, -, hlabel, -⟩ := (List.forall₂_cons.mp hiff).1
  rw [hduration] at hd
  cases hd
  exact ⟨log, h, _, hall, rfl, (hlabel.mp rfl).1.resolve_left Bool.noConfusion⟩

/-- The estimate for the call of `wrap` is written over by telemetry. The duration is measured, but the
call is still labelled with the source of the estimate. -/
theorem delegated_label_stale :
    ∃ log, History delegatingForest delegatedMeasured log ∧
      delegatedMeasured.duration? callOfWrap.id = some ⟨.functionDuration, .int 7, false⟩ ∧
      ∃ c, all delegatingForest delegatedMeasured delegatingMain = .ok [c] ∧
        c.source = some "paths" ∧
          ∀ r : Report, r.callLine c = .ok (r.labelled c "estimated") := by
  obtain ⟨-, log, h⟩ := history_delegated
  have hall : all delegatingForest delegatedMeasured delegatingMain = .ok [{
      function := some "main"
      callee := some "wrap"
      resolved := some "wrap"
      duration := { type := "function_duration", value := 7 }
      source := some "paths" }] := by cbv
  have hheld : delegatingForest.Holds callOfWrap := by cbv
  exact ⟨_, h.telemetry hheld rfl rfl, by cbv, _, hall, rfl, fun r => rfl⟩

end CallEntry

end CallTime

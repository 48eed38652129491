import Mathlib.Logic.Relation
import CallTime.Proofs.Durations
import CallTime.Proofs.Execution
import CallTime.Proofs.Machine

/-!
What an analysis writes, and what it fails with.

The entries that a run can write, and the faults that can end it, are listed once, each with what was
known at the time. Main statement: whatever an analysis knows at its end was written entry by entry, and
if it failed then for a reason on the list.
-/

namespace CallTime

open Analysis Relation

namespace Insights

def put (s : Insights) (i : NodeId) (k : Key) (e : Entry Note) : Insights :=
  s.write i ((s.data i).set k e).1

def drop (s : Insights) (i : NodeId) (k : Key) : Insights := s.write i ((s.data i).remove k)

theorem get?_put {s : Insights} {i j : NodeId} {k k' : Key} {e e' : Entry Note}
    (h : (s.put i k e).get? j k' = some e') : e' = e ∧ k' = k ∨ s.get? j k' = some e' := by
  rw [put, get?, data_write] at h
  split at h
  · next hi =>
    subst hi
    unfold InsightData.set at h
    split at h
    · exact .inr h
    · replace h : (OrderedMap.insert _ k e).get? k' = some e' := h
      rw [OrderedMap.get?_insert] at h
      split at h
      · next hk => exact .inl ⟨(Option.some.inj h).symm, hk.symm⟩
      · exact .inr h
  · exact .inr h

theorem get?_drop {s : Insights} {i j : NodeId} {k k' : Key} {e : Entry Note}
    (h : (s.drop i k).get? j k' = some e) : s.get? j k' = some e := by
  have hd := State.get?_drop ⟨s, .unbounded 0, [], #[]⟩ i j k k'
  rw [show (s.drop i k).get? j k' = _ from hd] at h
  split at h
  · cases h
  · exact h

/-- Some paths of a function have this mean. -/
def Means (s : Insights) (duration : Int) : Prop :=
  ∃ g paths chosen, s.paths? g = some paths ∧ chosen.Sublist paths ∧
    Path.average chosen = .ok (some duration)

end Insights

namespace Clock

def Kin : Clock → Clock → Prop
  | .unbounded _, c => ∃ m, c = .unbounded m
  | .metered limit _, c => ∃ m, c = .metered limit m
  | .loose _, _ => True

theorem Kin.refl (c : Clock) : c.Kin c := by
  cases c with
  | unbounded m => exact ⟨m, rfl⟩
  | metered limit m => exact ⟨m, rfl⟩
  | loose v => trivial

theorem Kin.spend {start c : Clock} (h : start.Kin c) (n : Nat) : start.Kin (c.spend (.int n)).2 := by
  cases start with
  | unbounded m =>
    obtain ⟨m', rfl⟩ := h
    exact ⟨m' + n, rfl⟩
  | metered limit m =>
    obtain ⟨m', rfl⟩ := h
    simp only [Clock.spend, Value.toInt]
    split
    · exact ⟨m', rfl⟩
    · split <;> exact ⟨_, rfl⟩
  | loose v => trivial

end Clock

namespace Analysis

/-- An entry is written or taken away in a run over nodes with `N`. -/
inductive Wrote (setup : Setup) (N : Artifact → Prop) : Insights → Insights → Prop
  | arguments (s : Insights) {call : Artifact} (g : Function) {arguments : List Artifact} (hc : N call)
    (h : resolveArguments setup.forest s call = .ok arguments) :
    Wrote setup N s (s.put g.id .callArgs (.note (.arguments arguments)))
  | signature (s : Insights) (f : Function) (σ : Signature) :
    Wrote setup N s (s.put f.id .analyzedArgs (.note (.signature σ)))
  | mark (s : Insights) (call : Artifact) : Wrote setup N s (s.put call.id .recursiveCall recursiveMark)
  | paths (s : Insights) {f : Function} {c c' : Clock} {paths : List Path} (hf : N f.artifact)
    (h : Path.enumerate setup.forest f c = (.ok paths, c')) :
    Wrote setup N s (s.put f.id .paths (.note (.paths paths)))
  | sums (s : Insights) {f : Function} {paths : List Path} {durations : List (List Int)}
    (hp : s.paths? f = some paths) (h : paths.mapM (knownDurations s ·) = .ok durations) :
    Wrote setup N s (s.put f.id .paths (.note (.paths
      (if durations.all List.isEmpty then paths.map forgetDerived
        else paths.zipWith addUp durations))))
  | measured (s : Insights) (call : Artifact) {f : Function} {duration : Int}
    (h : measuredDuration setup.durations s f = .ok (some duration)) :
    Wrote setup N s (s.put call.id .functionDuration (.insight ⟨.functionDuration, .int duration, true⟩))
  | mean (s : Insights) (call : Artifact) {duration : Int} (h : s.Means duration) :
    Wrote setup N s (s.put call.id .functionDuration (.insight ⟨.functionDuration, .int duration, true⟩))
  | source (s : Insights) (call : Artifact) (text : String) :
    Wrote setup N s (s.put call.id .durationSource (.note (.value (.str text))))
  | dropped (s : Insights) (call : Artifact) (k : Key) : Wrote setup N s (s.drop call.id k)

/-- A fault that a run over nodes with `N` ends with, by what is known then. The clock of the run is of
the kind of `start`. -/
inductive Raised (setup : Setup) (N : Artifact → Prop) (start : Clock) (t : Insights) : Fault → Prop
  | clock {c : Clock} {n : Nat} {e : Fault} (hn : 0 < n) (hc : start.Kin c)
    (h : (c.spend (.int n)).1 = .error e) : Raised setup N start t e
  | path {f : Function} {trace : Trace} {e : Fault} (hf : N f.artifact)
    (ht : trace ∈ f.body.traces)
    (h : Path.make setup.forest f trace.outcomes trace.emitted = .error e) : Raised setup N start t e
  | argument {call : Artifact} {e : Fault} (hc : N call)
    (h : resolveArguments setup.forest t call = .error e) : Raised setup N start t e
  | signature {f : Function} {e : Fault} (hf : N f.artifact)
    (h : Signature.of (t.effectiveArgs f) = .error e) : Raised setup N start t e
  | mark {call : Artifact} {e : Fault}
    (h : ((t.recursive? call.id).getD (.bool false)).truth = .error e) : Raised setup N start t e
  | detector {call : Artifact} {e : Fault} (h : setup.detector.flags setup.forest t call = .error e) :
    Raised setup N start t e
  | candidate {g : Function} {paths : List Path} {e : Fault} (hg : N g.artifact)
    (hp : t.paths? g = some paths) (h : Path.candidates (t.effectiveArgs g) paths = .error e) :
    Raised setup N start t e
  | mean {g : Function} {paths chosen : List Path} {e : Fault} (hp : t.paths? g = some paths)
    (hc : chosen.Sublist paths) (h : Path.average chosen = .error e) : Raised setup N start t e
  | measured {f : Function} {e : Fault} (h : measuredDuration setup.durations t f = .error e) :
    Raised setup N start t e
  | sum {f : Function} {paths : List Path} {p : Path} {e : Fault} (hf : t.paths? f = some paths)
    (hp : p ∈ paths) (h : knownDurations t p = .error e) : Raised setup N start t e
  | missing (h : .watch .missing ∈ setup.passes) : Raised setup N start t .unimplemented

end Analysis

namespace Run

variable {α β : Type} {setup : Setup} {N : Artifact → Prop} {start : Clock} {x : Run α} {s t u : State}

/-- The way from one state to another, entry by entry, on a clock of one kind. -/
structure Trail (setup : Setup) (N : Artifact → Prop) (start : Clock) (s t : State) : Prop where
  writes : ReflTransGen (Wrote setup N) s.insights t.insights
  clock : start.Kin s.clock → start.Kin t.clock

theorem Trail.refl (s : State) : Trail setup N start s s := ⟨.refl, fun h => h⟩

theorem Trail.trans (h : Trail setup N start s t) (h' : Trail setup N start t u) :
    Trail setup N start s u :=
  ⟨h.writes.trans h'.writes, fun hs => h'.clock (h.clock hs)⟩

/-- From `s` the computation leaves a trail, whether it ends with `Q` or raises a fault. -/
def Acts (setup : Setup) (N : Artifact → Prop) (start : Clock) (x : Run α) (s : State)
    (Q : α → State → Prop) : Prop :=
  start.Kin s.clock → Ends x s (fun a t => Trail setup N start s t ∧ Q a t)
    fun e t => Trail setup N start s t ∧ Raised setup N start t.insights e

variable {Q : α → State → Prop}

theorem acts_pure {a : α} (h : Q a s) : Acts setup N start (pure a) s Q := fun _ => ⟨.refl s, h⟩

theorem acts_bind {f : α → Run β} {R : β → State → Prop} (hx : Acts setup N start x s Q)
    (hf : ∀ a t, Q a t → Acts setup N start (f a) t R) : Acts setup N start (x >>= f) s R := by
  intro hs
  refine ends_bind (hx hs) fun a t h => ?_
  exact (hf a t h.2 (h.1.clock hs)).mono (fun b u hu => ⟨h.1.trans hu.1, hu.2⟩)
    fun e u hu => ⟨h.1.trans hu.1, hu.2⟩

theorem acts_ite {c : Prop} [Decidable c] {y : Run α} (hx : Acts setup N start x s Q)
    (hy : Acts setup N start y s Q) : Acts setup N start (if c then x else y) s Q := by
  split
  · exact hx
  · exact hy

theorem acts_lift {r : Except Fault α} (he : ∀ e, r = .error e → Raised setup N start s.insights e)
    (ha : ∀ a, r = .ok a → Q a s) : Acts setup N start (liftM r : Run α) s Q := by
  intro _
  cases r with
  | error e => exact ⟨.refl s, he e rfl⟩
  | ok a => exact ⟨.refl s, ha a rfl⟩

theorem acts_lift_bind {r : Except Fault α} {f : α → Run β} {R : β → State → Prop}
    (he : ∀ e, r = .error e → Raised setup N start s.insights e)
    (hf : ∀ a, r = .ok a → Acts setup N start (f a) s R) :
    Acts setup N start ((liftM r : Run α) >>= f) s R := by
  cases r with
  | error e => exact fun _ => ⟨.refl s, he e rfl⟩
  | ok a => exact hf a rfl

theorem Acts.mono {Q' : α → State → Prop} (h : Acts setup N start x s Q) (hQ : ∀ a t, Q a t → Q' a t) :
    Acts setup N start x s Q' :=
  fun hs => (h hs).mono (fun a t ht => ⟨ht.1, hQ a t ht.2⟩) fun _ _ ht => ht

theorem acts_of_quiet {a : α} (h : x s = (.ok a, t)) (hi : t.insights = s.insights)
    (hc : t.clock = s.clock) (hQ : Q a t) : Acts setup N start x s Q :=
  fun _ => ends_of_ok h ⟨⟨hi ▸ .refl, fun hs => hc ▸ hs⟩, hQ⟩

theorem acts_modify {g : State → State} (hi : (g s).insights = s.insights)
    (hc : (g s).clock = s.clock) : Acts setup N start (modify g) s fun _ t => t = g s :=
  acts_of_quiet rfl hi hc rfl

theorem acts_record (e : Event) : Acts setup N start (record e) s fun _ t => t.insights = s.insights :=
  acts_of_quiet rfl rfl rfl rfl

theorem acts_log (source message : String) :
    Acts setup N start (log source message) s fun _ t => t.insights = s.insights :=
  acts_record _

theorem acts_isActive (f : Function) : Acts setup N start (isActive f) s fun _ t => t = s :=
  acts_of_quiet rfl rfl rfl rfl

theorem acts_root? : Acts setup N start root? s fun _ t => t = s := acts_of_quiet rfl rfl rfl rfl

theorem acts_insights_bind {f : Insights → Run β} {R : β → State → Prop}
    (h : Acts setup N start (f s.insights) s R) : Acts setup N start (insights >>= f) s R := h

theorem acts_tick {n : Nat} (hn : 0 < n) : Acts setup N start (tick n) s fun _ _ => True := by
  intro hs
  have hkin := hs.spend n
  rw [Ends, tick]
  rcases h : s.clock.spend (.int n) with ⟨e | _, c⟩ <;> rw [h] at hkin
  · exact ⟨⟨.refl, fun _ => hkin⟩, .clock hn hs (congrArg Prod.fst h)⟩
  · exact ⟨⟨.refl, fun _ => hkin⟩, trivial⟩

theorem acts_set {i : NodeId} {k : Key} {e : Entry Note}
    (h : Wrote setup N s.insights (s.insights.put i k e)) :
    Acts setup N start (set i k e) s fun _ t => t.insights = s.insights.put i k e := by
  intro _
  obtain ⟨es, hset⟩ := set_apply i k e s
  exact ends_of_ok hset ⟨⟨.single h, fun hs => hs⟩, rfl⟩

theorem acts_remove {i : NodeId} {k : Key}
    (h : Wrote setup N s.insights (s.insights.drop i k)) :
    Acts setup N start (remove i k) s fun _ _ => True :=
  fun _ => ⟨⟨.single h, fun hs => hs⟩, trivial⟩

end Run

namespace Timed

variable {start : Clock}

theorem kin_forks (n : Nat) {c : Clock} (hc : start.Kin c) : start.Kin (forks n c).2 ∧
    ∀ e, (forks n c).1 = .error e → ∃ c', start.Kin c' ∧ (c'.spend (.int (2 : Nat))).1 = .error e := by
  induction n generalizing c with
  | zero => exact ⟨hc, fun e he => by cases he⟩
  | succ n ih =>
    have hkin := hc.spend 2
    rw [forks, bind_apply]
    change start.Kin (tick 2 c).2 at hkin
    rcases hr : tick 2 c with ⟨e | _, c'⟩ <;> rw [hr] at hkin
    · exact ⟨hkin, fun e' he => ⟨c, hc, (congrArg Prod.fst hr).trans he⟩⟩
    · exact ih hkin

end Timed

namespace Analysis

open Run

variable {setup : Setup} {N : Artifact → Prop} {start : Clock} {s : State} {call : Artifact}
  {f g : Function}

theorem acts_pathsOf (hf : N f.artifact) : Acts setup N start (pathsOf setup.forest f) s
    fun ps t => t.insights.paths? f = some ps ∧
      ∀ i k, k ≠ .paths → t.insights.get? i k = s.insights.get? i k := by
  intro hs
  obtain ⟨n, -, hn⟩ := Path.enumerate_eq setup.forest f
  obtain ⟨hkin, hspent⟩ := Timed.kin_forks n hs
  have hclock : start.Kin (Path.enumerate setup.forest f s.clock).2 := by
    rw [hn, Timed.bind_apply]
    rcases hr : Timed.forks n s.clock with ⟨e | _, c⟩ <;> rw [hr] at hkin <;> exact hkin
  obtain ⟨ps, hps, h⟩ | ⟨-, ⟨e, c, hc, h⟩ | ⟨ps, c, es, hc, h⟩⟩ := pathsOf_cases setup.forest f s
  · exact ends_of_ok h ⟨.refl s, hps, fun _ _ _ => rfl⟩
  · rw [hc] at hclock
    refine ends_of_error h ⟨⟨.refl, fun _ => hclock⟩, ?_⟩
    rw [hn, Timed.bind_apply] at hc
    rcases hr : Timed.forks n s.clock with ⟨e' | _, c'⟩ <;> rw [hr] at hc hspent
    · cases hc
      obtain ⟨c', hc', he⟩ := hspent e rfl
      exact .clock Nat.two_pos hc' he
    · obtain ⟨trace, ht, he⟩ := mapM_eq_error (congrArg Prod.fst hc)
      exact .path hf ht he
  · rw [hc] at hclock
    refine ends_of_ok h ⟨⟨.single (.paths s.insights hf hc), fun _ => hclock⟩, ?_, fun i k hk => ?_⟩
    · exact s.paths?_put f ps
    · exact s.get?_put_of_ne (.inr hk.symm) _

theorem acts_propagate (hc : N call) (g : Function) :
    Acts setup N start (propagate setup.forest call g) s fun _ _ => True := by
  refine acts_insights_bind (acts_lift_bind (fun e he => .argument hc he) fun as h => ?_)
  exact acts_bind (acts_set (.arguments s.insights g hc h)) fun _ _ _ => acts_pure trivial

theorem acts_shouldAnalyze (call : Artifact) (hg : N g.artifact) :
    Acts setup N start (shouldAnalyze setup call g) s fun _ _ => True := by
  refine acts_ite (acts_pure trivial) ?_
  refine acts_insights_bind (acts_lift_bind (fun e he => .mark he) fun _ _ => ?_)
  refine acts_ite (acts_pure trivial) ?_
  refine acts_bind (acts_isActive g) fun _ t _ => ?_
  refine acts_ite (acts_bind (acts_log _ _) fun _ _ _ => acts_pure trivial) ?_
  refine acts_insights_bind ?_
  split
  · exact acts_pure trivial
  · refine acts_ite (acts_pure trivial) ?_
    refine acts_lift_bind (fun e he => .signature hg he) fun _ _ => ?_
    have hlog : Acts setup N start (do
        Run.log callSource (g.qualified ++ " was analyzed for other arguments")
        return true) t fun _ _ => True :=
      acts_bind (acts_log _ _) fun _ _ _ => acts_pure trivial
    split
    · exact acts_ite (acts_pure trivial) hlog
    · exact hlog

theorem acts_approach (hc : N call) (hg : N g.artifact) :
    Acts setup N start (approach setup call g) s fun _ _ => True := by
  refine acts_bind (acts_propagate hc g) fun _ _ _ => ?_
  refine acts_bind (acts_shouldAnalyze call hg) fun _ _ _ => acts_ite (acts_pure trivial) ?_
  exact acts_bind (acts_pathsOf hg) fun _ _ _ => acts_pure trivial

/-- The arguments are read before the paths are built, which does not change them. -/
theorem acts_estimate (call : Artifact) (hg : N g.artifact) :
    Acts setup N start (estimate setup.forest call g) s fun d t => ∀ n ∈ d, t.insights.Means n := by
  refine acts_insights_bind (acts_ite ?_ (acts_bind (acts_log _ _) fun _ _ _ => acts_pure ?_))
  rotate_left
  · intro n hn
    cases hn
  refine acts_bind (acts_pathsOf hg) fun ps t ht => ?_
  rw [← Insights.effectiveArgs_congr (ht.2 g.id .callArgs (by decide))]
  refine acts_lift_bind (fun e he => .candidate hg ht.1 he) fun chosen hchosen => ?_
  have hsublist := Path.sublist_of_candidates hchosen
  refine acts_lift (fun e he => .mean ht.1 hsublist he) fun d hd n hn => ?_
  cases hn
  exact ⟨g, ps, chosen, ht.1, hsublist, hd⟩

theorem acts_storeDuration {duration : Int} (h : Wrote setup N s.insights (s.insights.put call.id
      .functionDuration (.insight ⟨.functionDuration, .int duration, true⟩))) (source : String) :
    Acts setup N start (storeDuration call duration source) s fun _ _ => True := by
  refine acts_bind (acts_set h) fun _ _ _ => acts_ite ?_ (acts_pure trivial)
  exact acts_bind (acts_set (.source _ call source)) fun _ _ _ => acts_pure trivial

theorem acts_dropDerived (call : Artifact) :
    Acts setup N start (dropDerived call) s fun _ _ => True := by
  refine acts_insights_bind ?_
  split
  · refine acts_ite ?_ (acts_pure trivial)
    exact acts_bind (acts_remove (.dropped _ call _)) fun _ _ _ => acts_remove (.dropped _ call _)
  · exact acts_pure trivial

theorem acts_settle (call : Artifact) (hg : N g.artifact) :
    Acts setup N start (settle setup call g) s fun _ _ => True := by
  refine acts_bind (acts_estimate call hg) fun d t hd => ?_
  refine acts_insights_bind (acts_lift_bind (fun e he => .measured he) fun m hm => ?_)
  split
  · exact acts_storeDuration (.measured _ call hm) _
  · exact acts_storeDuration (.mean _ call (hd _ rfl)) _
  · exact acts_dropDerived _

theorem acts_pathDurations (f : Function) :
    Acts setup N start (pathDurations f) s fun _ _ => True := by
  intro _
  obtain ⟨-, h⟩ | ⟨ps, hps, ⟨e, hm, h⟩ | ⟨ds, es, hm, h⟩⟩ := pathDurations_cases f s
  · exact ends_of_ok h ⟨.refl s, trivial⟩
  · obtain ⟨p, hp, he⟩ := mapM_eq_error hm
    exact ends_of_error h ⟨.refl s, .sum hps hp he⟩
  · exact ends_of_ok h ⟨⟨.single (.sums s.insights hps hm), fun hs => hs⟩, trivial⟩

theorem acts_visitPaths (f : Function) {p : Pass} (hp : p ∈ setup.passes) :
    Acts setup N start (visitPaths f p) s fun _ _ => True := by
  cases p with
  | pathDuration => exact acts_pathDurations f
  | recursiveCall => exact acts_pure trivial
  | callDuration => exact acts_pure trivial
  | watch w =>
    cases w with
    | paths =>
      refine acts_insights_bind (acts_bind acts_root? fun _ _ _ => ?_)
      exact (acts_record _).mono fun _ _ _ => trivial
    | missing => exact fun _ => ⟨.refl s, .missing hp⟩
    | nothing => exact acts_pure trivial
    | nodes => exact acts_pure trivial
    | calls => exact acts_pure trivial
    | kinds => exact acts_pure trivial

theorem acts_noteSignature (hf : N f.artifact) :
    Acts setup N start (noteSignature f) s fun _ _ => True := by
  refine acts_insights_bind (acts_lift_bind (fun e he => .signature hf he) fun σ _ => ?_)
  exact acts_bind (acts_set (.signature _ f σ)) fun _ _ _ => acts_pure trivial

theorem acts_begin (hf : N f.artifact) : Acts setup N start (begin setup f) s fun _ _ => True := by
  refine acts_bind (acts_record _) fun _ _ _ => ?_
  refine acts_bind (acts_isActive f) fun _ _ _ => ?_
  refine acts_bind (acts_pathsOf hf) fun _ _ _ => acts_ite (acts_pure trivial) ?_
  refine acts_bind (acts_log _ _) fun _ _ _ => ?_
  exact acts_bind (acts_noteSignature hf) fun _ _ _ => acts_pure trivial

theorem acts_markRecursive (call : Artifact) :
    Acts setup N start (markRecursive setup call) s fun _ _ => True := by
  refine acts_insights_bind (acts_lift_bind (fun e he => .detector he) fun _ _ => ?_)
  refine acts_ite (acts_bind (acts_log _ _) fun _ _ _ => ?_) (acts_pure trivial)
  exact acts_bind (acts_set (.mark _ call)) fun _ _ _ => acts_pure trivial

theorem acts_visit {a : Artifact} {p : Pass} (hc : p.callee? setup.forest a = none) :
    Acts setup N start (visit setup (fun _ => pure ()) a p) s fun _ _ => True := by
  have hrecord (e : Event) (t : State) : Acts setup N start (record e) t fun _ _ => True :=
    (acts_record e).mono fun _ _ _ => trivial
  cases p with
  | recursiveCall =>
    cases a with
    | call => exact acts_markRecursive _
    | _ => exact acts_pure trivial
  | callDuration =>
    cases a with
    | call info name arguments target =>
      replace hc : setup.forest.target? (.call info name arguments target) = none := hc
      simp only [visit, callDuration, hc]
      exact hrecord _ s
    | _ => exact acts_pure trivial
  | pathDuration => exact acts_pure trivial
  | watch w =>
    cases w with
    | nodes =>
      exact acts_bind (Q := fun _ _ => True) (acts_of_quiet rfl rfl rfl trivial) fun _ t _ => hrecord _ t
    | calls =>
      cases a with
      | call => exact acts_bind acts_root? fun _ t _ => hrecord _ t
      | _ => exact acts_pure trivial
    | kinds => cases a <;> exact hrecord _ s
    | nothing => exact acts_pure trivial
    | paths => exact acts_pure trivial
    | missing => exact acts_pure trivial

def Task.Planned (setup : Setup) : Task → Prop
  | .paths _ ps => ∀ p ∈ ps, p ∈ setup.passes
  | _ => True

theorem Task.Leaves.planned {task : Task} {next : List Task} (h : task.Leaves setup next)
    (ht : task.Planned setup) : ∀ task' ∈ next, task'.Planned setup := by
  cases h with
  | entered f =>
    have hp : ∀ p ∈ setup.passes.filter (·.overPaths), p ∈ setup.passes :=
      fun p hp => List.mem_of_mem_filter hp
    simpa [Task.Planned] using hp
  | adding f p ps => simpa [Task.Planned] using fun q hq => ht q (List.mem_cons_of_mem p hq)
  | _ => simp [Task.Planned]

/-- The children of the nodes, and the functions they call, are among the nodes. -/
structure Setup.Encloses (setup : Setup) (N : Artifact → Prop) : Prop where
  child : ∀ a, N a → ∀ c ∈ a.children, N c
  target : ∀ a g, N a → setup.forest.target? a = some g → N g.artifact

theorem acts_perform (region : setup.Encloses N) {task : Task} (ht : task.Within N)
    (hp : task.Planned setup) : Acts setup N start (task.perform setup) s fun _ _ => True := by
  cases task with
  | enter f =>
    refine acts_bind (acts_begin ht) fun _ t _ => acts_ite ?_ (acts_pure trivial)
    exact acts_bind (acts_modify rfl rfl) fun _ _ _ => acts_pure trivial
  | nodes root pending =>
    cases pending with
    | nil => exact acts_pure trivial
    | cons a pending =>
      simp only [Task.perform]
      split
      · exact acts_pure trivial
      · exact acts_bind (acts_tick Nat.one_pos) fun _ _ _ => acts_pure trivial
  | passes a ps =>
    cases ps with
    | nil => exact acts_pure trivial
    | cons p ps =>
      cases hc : p.callee? setup.forest a with
      | none =>
        simp only [Task.perform, hc]
        exact acts_bind (acts_visit hc) fun _ _ _ => acts_pure trivial
      | some g =>
        simp only [Task.perform, hc]
        have hg := region.target a g ht (target?_of_callee? hc)
        exact acts_bind (acts_approach ht hg) fun _ _ _ => acts_pure trivial
  | settle call g => exact acts_bind (acts_settle call ht.2) fun _ _ _ => acts_pure trivial
  | paths f ps =>
    cases ps with
    | nil => exact acts_pure trivial
    | cons p ps =>
      exact acts_bind (acts_visitPaths f (hp p List.mem_cons_self)) fun _ _ _ => acts_pure trivial
  | leave => exact acts_bind (acts_modify rfl rfl) fun _ _ _ => acts_pure trivial

/-- The moment was reached from what was known in the beginning, and a fault was raised for a reason. -/
structure Moment.Traced (setup : Setup) (N : Artifact → Prop) (start : Clock) (known : Insights)
    (m : Moment) : Prop where
  writes : ReflTransGen (Wrote setup N) known m.state.insights
  clock : start.Kin m.state.clock
  raised : ∀ e, m.fault = some e → Raised setup N start m.state.insights e
  tasks : ∀ task ∈ m.tasks, task.Within N ∧ task.Planned setup

variable {known : Insights}

theorem step_traced (region : setup.Encloses N) {m : Moment} (hm : m.Traced setup N start known) :
    (step setup m).Traced setup N start known := by
  obtain ⟨s, fault, tasks⟩ := m
  cases tasks with
  | nil => exact hm
  | cons task tasks =>
    have hrest : ∀ task' ∈ tasks, task'.Within N ∧ task'.Planned setup :=
      fun task' h => hm.tasks task' (List.mem_cons_of_mem task h)
    cases fault with
    | some e => cases task <;> exact ⟨hm.writes, hm.clock, hm.raised, hrest⟩
    | none =>
      obtain ⟨ht, hp⟩ := hm.tasks task List.mem_cons_self
      have hacts := acts_perform (s := s) region ht hp hm.clock
      simp only [step]
      unfold Run.Ends at hacts
      rcases he : task.perform setup s with ⟨e | next, t⟩ <;> rw [he] at hacts
      · obtain ⟨trail, hr⟩ := hacts
        exact ⟨hm.writes.trans trail.writes, trail.clock hm.clock, fun e' h => Option.some.inj h ▸ hr,
          hrest⟩
      · obtain ⟨trail, -⟩ := hacts
        refine ⟨hm.writes.trans trail.writes, trail.clock hm.clock, fun e' h => (by cases h),
          fun task' h => ?_⟩
        obtain h | h := List.mem_append.mp h
        · exact ⟨perform_within region.child region.target ht he task' h,
            (leaves_of_perform he).planned hp task' h⟩
        · exact hrest task' h

theorem moment_traced (region : setup.Encloses N) (known : Insights) (start : Clock) {a : Artifact}
    (ha : N a) (n : Nat) : (moment setup known start a n).Traced setup N start known := by
  induction n with
  | zero =>
    refine ⟨.refl, .refl start, fun e h => (by cases h), fun task h => ?_⟩
    rw [List.mem_singleton.mp h]
    cases hf : Function.ofArtifact? a with
    | none => exact ⟨fun b hb => List.mem_singleton.mp hb ▸ ha, trivial⟩
    | some f =>
      have hfa : f.artifact = a := by
        cases a <;> cases hf
        rfl
      exact ⟨(hfa ▸ ha : N f.artifact), trivial⟩
  | succ n ih =>
    rw [moment_succ]
    exact step_traced region ih

/-- What an analysis leaves was written entry by entry, and it fails for one of the listed reasons. -/
theorem analyze_traced (sound : setup.forest.Sound) (region : setup.Encloses N) (known : Insights)
    {a : Artifact} (held : setup.forest.Holds a) (ha : N a)
    (hc : Clock.forLimit setup.settings.maxTicks = .ok start) :
    ReflTransGen (Wrote setup N) known (analyze setup known a).insights ∧
      ∀ e, (analyze setup known a).result = .error e →
        Raised setup N start (analyze setup known a).insights e := by
  obtain ⟨n, -, h⟩ := exists_moment_eq_analyze sound known held hc
  have hm := moment_traced region known start ha n
  rw [← h]
  refine ⟨hm.writes, fun e he => hm.raised e ?_⟩
  simp only [Moment.outcome] at he
  cases hf : (moment setup known start a n).fault with
  | none =>
    rw [hf] at he
    cases he
  | some e' =>
    rw [hf] at he
    cases he
    rfl

end Analysis

end CallTime

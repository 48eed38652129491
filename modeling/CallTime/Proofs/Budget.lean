import Mathlib
import CallTime.Proofs.Execution
import CallTime.Proofs.Machine
import CallTime.Proofs.Policy

/-!
Analyses under a budget.

The analysis spends ticks but never looks at the clock, so with a budget it does the same as without one
up to the tick that is too many. Main statement: a budget is overrun just if the analysis needs more ticks
than it allows; if it is not, everything but the clock is as it would be without it; and if it is, the
analysis stops short of what it would have done, at most two ticks too late.
-/

namespace CallTime

namespace Timed

theorem tick_within {n : Nat} (hn : 0 < n) {limit m : Int} (h : m + n ≤ limit) :
    tick n (.metered limit m) = (.ok (), .metered limit (m + n)) := by
  change Clock.spend (.int n) (.metered limit m) = _
  simp only [Clock.spend, Value.toInt]
  rw [if_neg (by omega), if_neg (by omega)]

theorem tick_beyond {n : Nat} (hn : 0 < n) {limit m : Int} (h : limit < m + n) :
    tick n (.metered limit m) = (.error (Clock.overrun limit (m + n)), .metered limit (m + n)) := by
  change Clock.spend (.int n) (.metered limit m) = _
  simp only [Clock.spend, Value.toInt]
  rw [if_neg (by omega), if_pos h]

theorem forks_unbounded (n : Nat) (m : Int) :
    forks n (.unbounded m) = (.ok (), .unbounded (m + 2 * n)) := by
  induction n generalizing m with
  | zero =>
    rw [Int.natCast_zero, Int.mul_zero, Int.add_zero]
    rfl
  | succ n ih =>
    change forks n (.unbounded (m + 2)) = _
    rw [ih, show m + 2 + 2 * (n : Int) = m + 2 * (n + 1 : Nat) by omega]

/-- A meter lets the ticks of branches through, or it stops them at the first one that is too many. -/
theorem forks_metered (n : Nat) {limit m : Int} (hm : m ≤ limit) :
    (m + 2 * n ≤ limit ∧ forks n (.metered limit m) = (.ok (), .metered limit (m + 2 * n))) ∨
      ∃ j, limit < j ∧ j ≤ limit + 2 ∧ j ≤ m + 2 * n ∧
        forks n (.metered limit m) = (.error (Clock.overrun limit j), .metered limit j) := by
  induction n generalizing m with
  | zero =>
    rw [Int.natCast_zero, Int.mul_zero, Int.add_zero]
    exact .inl ⟨hm, rfl⟩
  | succ n ih =>
    rw [forks, bind_apply]
    by_cases h : limit < m + 2
    · rw [tick_beyond Nat.two_pos h]
      exact .inr ⟨m + 2, h, by omega, by omega, rfl⟩
    · rw [tick_within Nat.two_pos (by omega)]
      rw [show m + 2 * ((n + 1 : Nat) : Int) = m + 2 + 2 * n by omega]
      exact ih (by omega)

end Timed

def Analysis.State.on (s : Analysis.State) (clock : Clock) : Analysis.State := { s with clock }

namespace Run

open Analysis

variable {α β : Type} {x : Run α} {f : α → Run β}

def Timeless (x : Run α) : Prop := ∀ s clock, x (s.on clock) = ((x s).1, (x s).2.on clock)

theorem timeless_pure (a : α) : Timeless (pure a : Run α) := fun _ _ => rfl

theorem timeless_lift (r : Except Fault α) : Timeless (liftM r : Run α) := fun _ _ => rfl

theorem timeless_throw (e : Fault) : Timeless (throw e : Run α) := fun _ _ => rfl

theorem timeless_insights : Timeless insights := fun _ _ => rfl

theorem timeless_isActive (f : Function) : Timeless (isActive f) := fun _ _ => rfl

theorem timeless_root? : Timeless root? := fun _ _ => rfl

theorem timeless_record (e : Event) : Timeless (record e) := fun _ _ => rfl

theorem timeless_log (source message : String) : Timeless (log source message) := fun _ _ => rfl

theorem timeless_remove (i : NodeId) (k : Key) : Timeless (remove i k) := fun _ _ => rfl

theorem Timeless.bind (hx : Timeless x) (hf : ∀ a, Timeless (f a)) : Timeless (x >>= f) := by
  intro s clock
  have h := hx s clock
  rcases hs : x s with ⟨e | a, t⟩ <;> rw [hs] at h
  · rw [bind_of_error h, bind_of_error hs]
  · rw [bind_of_ok h, bind_of_ok hs]
    exact hf a t clock

theorem timeless_ite {c : Prop} [Decidable c] {x y : Run α} (hx : Timeless x) (hy : Timeless y) :
    Timeless (if c then x else y) := by
  split
  · exact hx
  · exact hy

theorem timeless_set (i : NodeId) (k : Key) (e : Entry Note) : Timeless (set i k e) := by
  refine timeless_insights.bind fun known => ?_
  simp only
  split
  · exact (timeless_log _ _).bind fun _ => fun _ _ => rfl
  · exact fun _ _ => rfl

theorem timeless_forM {f : α → Run Unit} {as : List α} (h : ∀ a ∈ as, Timeless (f a)) :
    Timeless (as.forM f) := by
  induction as with
  | nil => exact timeless_pure ()
  | cons a as ih =>
    apply (h a List.mem_cons_self).bind
    exact fun _ => ih fun b hb => h b (List.mem_cons_of_mem a hb)

theorem timeless_mapM_lift (g : α → Except Fault β) (as : List α) :
    Timeless (as.mapM fun a => (liftM (g a) : Run β)) := by
  intro s clock
  rw [mapM_lift_apply, mapM_lift_apply]

end Run

namespace Analysis

open Run

variable (setup : Setup)

theorem timeless_markRecursive (call : Artifact) : Timeless (markRecursive setup call) := by
  refine timeless_insights.bind fun _ => (timeless_lift _).bind fun _ => ?_
  refine timeless_ite ?_ (timeless_pure _)
  exact (timeless_log _ _).bind fun _ => (timeless_set _ _ _).bind fun _ => timeless_pure _

theorem timeless_propagate (forest : Forest) (call : Artifact) (g : Function) :
    Timeless (propagate forest call g) := by
  refine timeless_insights.bind fun _ => (timeless_lift _).bind fun _ => ?_
  exact (timeless_set _ _ _).bind fun _ => timeless_pure _

theorem timeless_shouldAnalyze (call : Artifact) (g : Function) :
    Timeless (shouldAnalyze setup call g) := by
  refine timeless_ite (timeless_pure _) ?_
  refine timeless_insights.bind fun _ => (timeless_lift _).bind fun _ => ?_
  refine timeless_ite (timeless_pure _) ((timeless_isActive g).bind fun _ => ?_)
  refine timeless_ite ((timeless_log _ _).bind fun _ => timeless_pure _) ?_
  refine timeless_insights.bind fun known => ?_
  split
  · exact timeless_pure _
  · refine timeless_ite (timeless_pure _) ((timeless_lift _).bind fun _ => ?_)
    have hlog := (timeless_log callSource (g.qualified ++ " was analyzed for other arguments")).bind
      fun _ => timeless_pure true
    split
    · exact timeless_ite (timeless_pure _) hlog
    · exact hlog

theorem timeless_noteSignature (f : Function) : Timeless (noteSignature f) := by
  refine timeless_insights.bind fun _ => (timeless_lift _).bind fun _ => ?_
  exact (timeless_set _ _ _).bind fun _ => timeless_pure _

theorem timeless_storeDuration (call : Artifact) (duration : Int) (source : String) :
    Timeless (storeDuration call duration source) := by
  refine (timeless_set _ _ _).bind fun _ => timeless_ite ?_ (timeless_pure _)
  exact (timeless_set _ _ _).bind fun _ => timeless_pure _

theorem timeless_dropDerived (call : Artifact) : Timeless (dropDerived call) := by
  refine timeless_insights.bind fun _ => ?_
  split
  · refine timeless_ite ?_ (timeless_pure _)
    exact (timeless_remove _ _).bind fun _ => timeless_remove _ _
  · exact timeless_pure _

theorem timeless_pathDurations (f : Function) : Timeless (pathDurations f) := by
  refine timeless_insights.bind fun known => (timeless_mapM_lift _ _).bind fun durations => ?_
  have hset : Timeless (if (known.paths? f).isSome then do
      let _ ← Run.set f.id .paths (.note (.paths
        (if durations.all List.isEmpty then ((known.paths? f).getD []).map forgetDerived
          else ((known.paths? f).getD []).zipWith addUp durations)))
      pure ()
    else pure () : Run Unit) :=
    timeless_ite ((timeless_set _ _ _).bind fun _ => timeless_pure _) (timeless_pure _)
  refine timeless_ite ?_ hset
  exact (timeless_forM fun _ _ => timeless_log _ _).bind fun _ => hset

theorem timeless_visitPaths (f : Function) (p : Pass) : Timeless (visitPaths f p) := by
  cases p with
  | pathDuration => exact timeless_pathDurations f
  | watch w =>
    cases w with
    | missing => exact timeless_throw _
    | paths => exact timeless_insights.bind fun _ => timeless_root?.bind fun _ => timeless_record _
    | _ => exact timeless_pure _
  | _ => exact timeless_pure _

theorem timeless_visit {a : Artifact} {p : Pass} (h : p.callee? setup.forest a = none)
    (enter : Function → Run Unit) : Timeless (visit setup enter a p) := by
  cases p with
  | recursiveCall =>
    cases a with
    | call => exact timeless_markRecursive setup _
    | _ => exact timeless_pure _
  | callDuration =>
    cases a with
    | call info name arguments target =>
      simp only [visit, callDuration]
      rw [show setup.forest.target? (.call info name arguments target) = none from h]
      exact timeless_log _ _
    | _ => exact timeless_pure _
  | pathDuration => exact timeless_pure _
  | watch w =>
    cases w with
    | nodes => exact fun _ _ => rfl
    | calls =>
      cases a with
      | call => exact timeless_root?.bind fun _ => timeless_record _
      | _ => exact timeless_pure _
    | kinds => cases a <;> exact timeless_record _
    | _ => exact timeless_pure _

end Analysis

namespace Run

open Analysis

variable {α β : Type} {x : Run α} {f : α → Run β} {limit m : Int} {s : State} {stop : Insights}

/-- From the mark `m` on it does under a meter what it does without, if that takes it no further than to
the limit; else it is stopped at most two ticks behind the limit, and `stop` is known then. -/
def Metered (limit : Int) (x : Run α) (s : State) (m : Int) (stop : Insights) : Prop :=
  ∃ (r : Except Fault α) (t : State) (k : Int), x (s.on (.unbounded m)) = (r, t.on (.unbounded k)) ∧ m ≤ k ∧
    (k ≤ limit ∧ x (s.on (.metered limit m)) = (r, t.on (.metered limit k)) ∨
      ∃ (j : Int) (u : State), limit < j ∧ j ≤ limit + 2 ∧ j ≤ k ∧ u.insights = stop ∧
        x (s.on (.metered limit m)) = (.error (Clock.overrun limit j), u.on (.metered limit j)))

theorem Timeless.metered (h : Timeless x) (hm : m ≤ limit) (s : State) (stop : Insights) :
    Metered limit x s m stop :=
  ⟨(x s).1, (x s).2, m, h s _, le_rfl, .inl ⟨hm, h s _⟩⟩

theorem Metered.bind (hx : Metered limit x s m stop) (hf : ∀ a, Timeless (f a)) :
    Metered limit (x >>= f) s m stop := by
  obtain ⟨r, t, k, hu, hk, h⟩ := hx
  cases r with
  | error e =>
    refine ⟨.error e, t, k, bind_of_error hu f, hk, ?_⟩
    obtain ⟨hl, hb⟩ | ⟨j, u, hj, hj', hjk, hstop, hb⟩ := h
    · exact .inl ⟨hl, bind_of_error hb f⟩
    · exact .inr ⟨j, u, hj, hj', hjk, hstop, bind_of_error hb f⟩
  | ok a =>
    refine ⟨(f a t).1, (f a t).2, k, (bind_of_ok hu f).trans (hf a t _), hk, ?_⟩
    obtain ⟨hl, hb⟩ | ⟨j, u, hj, hj', hjk, hstop, hb⟩ := h
    · exact .inl ⟨hl, (bind_of_ok hb f).trans (hf a t _)⟩
    · exact .inr ⟨j, u, hj, hj', hjk, hstop, bind_of_error hb f⟩

theorem Timeless.bind_metered (hx : Timeless x) (hm : m ≤ limit)
    (hf : ∀ a t, x s = (.ok a, t) → Metered limit (f a) t m stop) :
    Metered limit (x >>= f) s m stop := by
  have h := hx s
  rcases hs : x s with ⟨e | a, t⟩ <;> rw [hs] at h
  · exact ⟨.error e, t, m, bind_of_error (h _) f, le_rfl, .inl ⟨hm, bind_of_error (h _) f⟩⟩
  · obtain ⟨r, u, k, hu, hk, hc⟩ := hf a t hs
    refine ⟨r, u, k, (bind_of_ok (h _) f).trans hu, hk, ?_⟩
    rwa [bind_of_ok (h _) f]

theorem metered_tick (hm : m ≤ limit) (s : State) : Metered limit (tick 1) s m s.insights := by
  refine ⟨.ok (), s, m + 1, rfl, by omega, ?_⟩
  have h : tick 1 (s.on (.metered limit m)) = ((Timed.tick 1 (.metered limit m)).1,
      s.on (Timed.tick 1 (.metered limit m)).2) := rfl
  rw [h]
  by_cases hl : limit < m + 1
  · rw [Timed.tick_beyond Nat.one_pos hl]
    exact .inr ⟨m + 1, s, hl, by omega, le_rfl, rfl, rfl⟩
  · rw [Timed.tick_within Nat.one_pos (by omega)]
    exact .inl ⟨by omega, rfl⟩

theorem metered_enumerate (hm : m ≤ limit) (s : State) (forest : Forest) (f : Function) :
    Metered limit (timed (Path.enumerate forest f)) s m s.insights := by
  obtain ⟨n, -, hn⟩ := Path.enumerate_eq forest f
  have h (clock : Clock) : timed (Path.enumerate forest f) (s.on clock) =
      ((Path.enumerate forest f clock).1, s.on (Path.enumerate forest f clock).2) := rfl
  rw [Metered, h, h, hn, Timed.bind_apply, Timed.forks_unbounded, Timed.bind_apply]
  refine ⟨_, s, m + 2 * n, rfl, by omega, ?_⟩
  obtain ⟨hl, hf⟩ | ⟨j, hj, hj', hjk, hf⟩ := Timed.forks_metered n hm
  · rw [hf]
    exact .inl ⟨hl, rfl⟩
  · rw [hf]
    exact .inr ⟨j, s, hj, hj', hjk, rfl, rfl⟩

theorem metered_pathsOf (hm : m ≤ limit) (s : State) (forest : Forest) (f : Function) :
    Metered limit (pathsOf forest f) s m s.insights := by
  refine timeless_insights.bind_metered hm fun known t ht => ?_
  obtain rfl : t = s := (congrArg Prod.snd ht).symm
  split
  · exact (timeless_pure _).metered hm _ _
  · refine (metered_enumerate hm t forest f).bind fun _ => (timeless_record _).bind fun _ => ?_
    exact (timeless_set _ _ _).bind fun _ => timeless_pure _

end Run

namespace Analysis

open Run

variable {setup : Setup} {limit m : Int}

theorem metered_begin (hm : m ≤ limit) (s : State) (f : Function) :
    Metered limit (begin setup f) s m s.insights := by
  refine (timeless_record _).bind_metered hm fun _ t ht => ?_
  obtain rfl := congrArg Prod.snd ht
  refine (timeless_isActive f).bind_metered hm fun _ u hu => ?_
  obtain rfl := congrArg Prod.snd hu
  refine (metered_pathsOf hm _ _ _).bind fun _ => timeless_ite (timeless_pure _) ?_
  exact (timeless_log _ _).bind fun _ => (timeless_noteSignature f).bind fun _ => timeless_pure _

theorem metered_settle (hm : m ≤ limit) (s : State) (call : Artifact) (g : Function) :
    Metered limit (settle setup call g) s m s.insights := by
  have hestimate : Metered limit (estimate setup.forest call g) s m s.insights := by
    refine timeless_insights.bind_metered hm fun known t ht => ?_
    obtain rfl : s = t := congrArg Prod.snd ht
    simp only
    split
    · refine (metered_pathsOf hm _ _ _).bind fun _ => (timeless_lift _).bind fun _ => ?_
      exact timeless_lift _
    · exact ((timeless_log _ _).bind fun _ => timeless_pure _).metered hm _ _
  refine hestimate.bind fun _ => timeless_insights.bind fun _ => (timeless_lift _).bind fun _ => ?_
  split
  · exact timeless_storeDuration _ _ _
  · exact timeless_storeDuration _ _ _
  · exact timeless_dropDerived _

theorem metered_approach (hm : m ≤ limit) (s : State) (call : Artifact) (g : Function) :
    Metered limit (approach setup call g) s m (propagate setup.forest call g s).2.insights := by
  refine (timeless_propagate _ _ _).bind_metered hm fun _ t ht => ?_
  refine (timeless_shouldAnalyze _ _ _).bind_metered hm fun _ u hu => ?_
  obtain ⟨r, es, hs⟩ := silent_shouldAnalyze setup call g t
  have hi : u.insights = t.insights := by
    rw [hu] at hs
    exact congrArg (fun p => p.2.insights) hs
  rw [ht, ← hi]
  split
  · exact (timeless_pure _).metered hm _ _
  · exact (metered_pathsOf hm u _ _).bind fun _ => timeless_pure _

/-- What is known where the ticks may run out in a task. On the way to a call that is after its arguments
were handed on. -/
def Task.stop (setup : Setup) (task : Task) (s : State) : Insights :=
  match task with
  | .passes a (p :: _) => match p.callee? setup.forest a with
    | some g => (propagate setup.forest a g s).2.insights
    | none => s.insights
  | _ => s.insights

theorem metered_perform (hm : m ≤ limit) (s : State) (task : Task) :
    Metered limit (task.perform setup) s m (task.stop setup s) := by
  cases task with
  | enter f =>
    refine (metered_begin hm s f).bind fun _ => ?_
    exact timeless_ite (Timeless.bind (fun _ _ => rfl) fun _ => timeless_pure _) (timeless_pure _)
  | nodes root pending =>
    cases pending with
    | nil => exact (timeless_pure _).metered hm _ _
    | cons a pending =>
      simp only [Task.perform]
      split
      · exact (timeless_pure _).metered hm _ _
      · exact (metered_tick hm s).bind fun _ => timeless_pure _
  | passes a ps =>
    cases ps with
    | nil => exact (timeless_pure _).metered hm _ _
    | cons p ps =>
      cases hc : p.callee? setup.forest a with
      | none =>
        simp only [Task.perform, hc]
        exact ((timeless_visit setup hc _).bind fun _ => timeless_pure _).metered hm _ _
      | some g =>
        simp only [Task.perform, Task.stop, hc]
        exact (metered_approach hm s a g).bind fun _ => timeless_pure _
  | settle call g => exact (metered_settle hm s call g).bind fun _ => timeless_pure _
  | paths f ps =>
    cases ps with
    | nil => exact (timeless_pure _).metered hm _ _
    | cons p ps =>
      exact ((timeless_visitPaths f p).bind fun _ => timeless_pure _).metered hm _ _
  | leave => exact Timeless.metered (fun _ _ => rfl) hm _ _

/-- What is known at a moment of an analysis, or right after the arguments of a call were handed on. -/
inductive PassesThrough (setup : Setup) (insights : Insights) (clock : Clock) (a : Artifact) :
    Insights → Prop
  | moment (n : Nat) :
    PassesThrough setup insights clock a (moment setup insights clock a n).state.insights
  | handed (n : Nat) {call : Artifact} {p : Pass} {ps : List Pass} {tasks : List Task} {g : Function}
    (ht : (Analysis.moment setup insights clock a n).tasks = .passes call (p :: ps) :: tasks)
    (hf : (Analysis.moment setup insights clock a n).fault = none)
    (hg : p.callee? setup.forest call = some g) :
    PassesThrough setup insights clock a
      (propagate setup.forest call g (Analysis.moment setup insights clock a n).state).2.insights

/-- The first moment is one without a budget, the second one with it: they go together, or the second
run has been stopped and knows something that satisfies `seen`. -/
inductive Alike (limit : Int) (seen : Insights → Prop) : Moment → Moment → Prop
  | together (s : State) {m : Int} (hm : m ≤ limit) (fault : Option Fault) (tasks : List Task) :
    Alike limit seen ⟨s.on (.unbounded m), fault, tasks⟩ ⟨s.on (.metered limit m), fault, tasks⟩
  | apart {s t : State} {j k : Int} (hs : s.clock = .unbounded k) (ht : t.clock = .metered limit j)
    (hj : limit < j) (hj' : j ≤ limit + 2) (hjk : j ≤ k) (hseen : seen t.insights)
    (fault : Option Fault) (tasks tasks' : List Task) :
    Alike limit seen ⟨s, fault, tasks⟩ ⟨t, some (Clock.overrun limit j), tasks'⟩

theorem stop_on (task : Task) (s : State) (clock : Clock) :
    task.stop setup (s.on clock) = task.stop setup s := by
  cases task with
  | passes a ps =>
    cases ps with
    | nil => rfl
    | cons p ps =>
      cases hc : p.callee? setup.forest a with
      | none => simp only [Task.stop, hc, State.on]
      | some g =>
        simp only [Task.stop, hc]
        rw [timeless_propagate setup.forest a g s clock]
        rfl
  | _ => rfl

theorem abandon_on (task : Task) (s : State) (clock : Clock) :
    task.abandon (s.on clock) = (task.abandon s).on clock := by
  cases task <;> rfl

theorem abandon_clock (task : Task) (s : State) : (task.abandon s).clock = s.clock := by
  cases task <;> rfl

theorem abandon_insights (task : Task) (s : State) : (task.abandon s).insights = s.insights := by
  cases task <;> rfl

theorem step_advances (setup : Setup) {s : State} {k : Int} (hs : s.clock = .unbounded k)
    (fault : Option Fault) (tasks : List Task) :
    ∃ k', k ≤ k' ∧ (step setup ⟨s, fault, tasks⟩).state.clock = .unbounded k' := by
  cases tasks with
  | nil => exact ⟨k, le_rfl, hs⟩
  | cons task tasks =>
    cases fault with
    | some e => exact ⟨k, le_rfl, (abandon_clock task s).trans hs⟩
    | none =>
      obtain ⟨r, t, k', h, hk, -⟩ : Metered k (task.perform setup) s k _ :=
        metered_perform (le_refl k) s task
      rw [show s.on (.unbounded k) = s by rw [← hs]; rfl] at h
      refine ⟨k', hk, ?_⟩
      simp only [step, h]
      cases r <;> rfl

theorem Alike.step {seen : Insights → Prop} {u b : Moment} (h : Alike limit seen u b)
    (hseen : ∀ task tasks, u.tasks = task :: tasks → u.fault = none →
      seen (task.stop setup u.state)) :
    Alike limit seen (step setup u) (step setup b) := by
  cases h with
  | together s hm fault tasks =>
    cases tasks with
    | nil => exact .together s hm fault []
    | cons task tasks =>
      cases fault with
      | some e =>
        simp only [Analysis.step, abandon_on]
        exact .together _ hm _ _
      | none =>
        obtain ⟨r, t, k, hu, -, h⟩ : Metered limit (task.perform setup) s _ _ :=
          metered_perform hm s task
        obtain ⟨hl, hb⟩ | ⟨j, v, hj, hj', hjk, hv, hb⟩ := h
        · simp only [Analysis.step, hu, hb]
          cases r with
          | error e => exact .together t hl _ _
          | ok next => exact .together t hl _ _
        · have hs := hseen task tasks rfl rfl
          rw [stop_on, ← hv] at hs
          simp only [Analysis.step, hu, hb]
          have hapart (fault : Option Fault) (tasks' : List Task) :=
            Alike.apart (s := t.on (.unbounded k)) (t := v.on (.metered limit j)) rfl rfl hj hj' hjk hs
              fault tasks' tasks
          cases r with
          | error e => exact hapart _ _
          | ok next => exact hapart _ _
  | @apart s t j k hs ht hj hj' hjk hknown fault tasks tasks' =>
    obtain ⟨k', hk, hc⟩ := step_advances setup hs fault tasks
    have hjk' := hjk.trans hk
    cases tasks' with
    | nil => exact .apart hc ht hj hj' hjk' hknown _ _ _
    | cons task tasks' =>
      refine .apart hc ((abandon_clock task t).trans ht) hj hj' hjk' ?_ _ _ _
      rwa [abandon_insights]

/-- The second run is stopped only where the first one passes through. -/
theorem moment_alike (setup : Setup) (insights : Insights) (hl : 0 ≤ limit) (a : Artifact) (n : Nat) :
    Alike limit (PassesThrough setup insights (.unbounded 0) a)
      (moment setup insights (.unbounded 0) a n) (moment setup insights (.metered limit 0) a n) := by
  induction n with
  | zero => exact .together { insights, clock := .unbounded 0 } hl _ _
  | succ n ih =>
    rw [moment_succ, moment_succ]
    refine ih.step fun task tasks ht hf => ?_
    cases task with
    | passes call ps =>
      cases ps with
      | nil => exact .moment n
      | cons p ps =>
        cases hc : p.callee? setup.forest call with
        | none =>
          simp only [Task.stop, hc]
          exact .moment n
        | some g =>
          simp only [Task.stop, hc]
          exact .handed n ht hf hc
    | _ => exact .moment n

def Setup.limited (setup : Setup) (maxTicks : Value) : Setup :=
  { setup with settings := { setup.settings with maxTicks } }

theorem moment_limited (setup : Setup) (maxTicks : Value) (insights : Insights) (clock : Clock)
    (a : Artifact) (n : Nat) :
    moment (setup.limited maxTicks) insights clock a n = moment setup insights clock a n :=
  rfl

/-- Let an analysis without a budget complete. With a budget it is stopped just if it spends more ticks
than that. If it is not stopped, it gives the same result and leaves the same behind; if it is, it
leaves behind what the analysis without a budget passes through, and its clock is at most two ticks past
the limit. That the ticks are used up can be said unless the numbers have too many digits. -/
theorem budget_cuts_short (setup : Setup) (sound : setup.forest.Sound) (insights : Insights)
    (a : Artifact) (held : setup.forest.Holds a) (limit : Int) (positive : 0 < limit)
    (complete : (analyze (setup.limited .null) insights a).result.isOk = true) :
    ∃ ticks, (analyze (setup.limited .null) insights a).clock = some (.unbounded ticks) ∧
      ((∃ mark, (analyze (setup.limited (.int limit)) insights a).result =
        .error (Clock.overrun limit mark)) ↔ limit < ticks) ∧
      (isLong (limit + 2) = false →
        ((∃ mark l, (analyze (setup.limited (.int limit)) insights a).result =
          .error (.exhausted mark l)) ↔ limit < ticks)) ∧
      (ticks ≤ limit → analyze (setup.limited (.int limit)) insights a =
        { analyze (setup.limited .null) insights a with clock := some (.metered limit ticks) }) ∧
      (limit < ticks → ∃ mark, limit < mark ∧ mark ≤ limit + 2 ∧
        (analyze (setup.limited (.int limit)) insights a).result =
          .error (Clock.overrun limit mark) ∧
        (isLong (limit + 2) = false → Clock.overrun limit mark = .exhausted mark limit) ∧
        (analyze (setup.limited (.int limit)) insights a).clock = some (.metered limit mark) ∧
        PassesThrough (setup.limited .null) insights (.unbounded 0) a
          (analyze (setup.limited (.int limit)) insights a).insights) := by
  have hmeter : Clock.forLimit (.int limit) = .ok (.metered limit 0) := by
    rw [Clock.forLimit_int, if_neg (by omega)]
  obtain ⟨n, hn, hu⟩ := @exists_moment_eq_analyze (setup.limited .null) sound insights a held _ rfl
  obtain ⟨k, hk, hb⟩ := @exists_moment_eq_analyze (setup.limited (.int limit)) sound insights a held
    _ hmeter
  rw [moment_limited] at hn hu hk hb
  rw [← moment_of_le hn (le_max_left n k)] at hu
  rw [← moment_of_le hk (le_max_right n k)] at hb
  have halike := moment_alike (setup.limited .null) insights positive.le a (max n k)
  rw [moment_limited, moment_limited] at halike
  rw [← hu] at complete ⊢
  rw [← hb]
  generalize moment setup insights (.unbounded 0) a (max n k) = u at halike complete ⊢
  generalize moment setup insights (.metered limit 0) a (max n k) = b at halike ⊢
  cases halike with
  | @together s m hm fault tasks =>
    obtain rfl : fault = none := by
      cases fault with
      | none => rfl
      | some e => cases complete
    have hover : ¬limit < m := by omega
    refine ⟨m, rfl, ⟨?_, fun h => absurd h hover⟩, fun _ => ⟨?_, fun h => absurd h hover⟩, fun _ => rfl,
      fun h => absurd h hover⟩
    · rintro ⟨mark, h⟩
      cases h
    · rintro ⟨mark, l, h⟩
      cases h
  | @apart s t j k hs ht hj hj' hjk hknown fault tasks tasks' =>
    have hshort (h : isLong (limit + 2) = false) : Clock.overrun limit j = .exhausted j limit :=
      Clock.overrun_eq (isLong_eq_false h (by omega)) (isLong_eq_false h (by omega))
    have hover : limit < k := by omega
    refine ⟨k, congrArg some hs, ⟨fun _ => hover, fun _ => ⟨j, rfl⟩⟩,
      fun h => ⟨fun _ => hover, fun _ => ⟨j, limit, congrArg Except.error (hshort h)⟩⟩,
      fun h => absurd h (by omega), fun _ => ⟨j, hj, hj', rfl, hshort, congrArg some ht, hknown⟩⟩

def retried : Session :=
  .start [.defining "main" [] [.calling "job" []],
    .defining "job" [] [.branch none none (some (.calling "job" [])) none]] {}

theorem sound_retried : retried.forest.Sound ∧ retried.forest.Holds retried.module := by
  rw [retried]
  exact Session.sound_start _ _

def retriedWithin (maxTicks : Value) : Outcome :=
  analyze (Setup.limited { forest := retried.forest } maxTicks) {} retried.module

/-- The ticks run out when the paths of the job are built, so that the clock is two ticks too far. -/
theorem retried_cut_short :
    (retriedWithin .null).result.isOk = true ∧
      (retriedWithin .null).clock = some (.unbounded 14) ∧
      (∃ mark, 4 < mark ∧ mark ≤ 6 ∧ (retriedWithin (.int 4)).result = .error (.exhausted mark 4) ∧
        PassesThrough (Setup.limited { forest := retried.forest } .null) {} (.unbounded 0) retried.module
          (retriedWithin (.int 4)).insights) ∧
      retriedWithin (.int 14) = { retriedWithin .null with clock := some (.metered 14 14) } := by
  have hrun : ((retriedWithin .null).result.isOk, (retriedWithin .null).clock) =
      (true, some (.unbounded 14)) := by cbv
  obtain ⟨sound, held⟩ := sound_retried
  unfold retriedWithin at hrun ⊢
  generalize retried = session at sound held hrun ⊢
  obtain ⟨hok, hclock⟩ := Prod.mk.inj hrun
  have hcut (limit : Int) (h : 0 < limit) :=
    budget_cuts_short { forest := session.forest } sound {} session.module held limit h hok
  refine ⟨hok, hclock, ?_, ?_⟩
  · obtain ⟨ticks, ht, -, -, -, h⟩ := hcut 4 (by decide)
    obtain rfl : ticks = 14 := by simpa using ht.symm.trans hclock
    obtain ⟨mark, hm, hm', hr, hshort, -, hp⟩ := h (by decide)
    exact ⟨mark, hm, hm', hr.trans (congrArg Except.error (hshort (by cbv))), hp⟩
  · obtain ⟨ticks, ht, -, -, h, -⟩ := hcut 14 (by decide)
    obtain rfl : ticks = 14 := by simpa using ht.symm.trans hclock
    exact h (by decide)

end Analysis

end CallTime

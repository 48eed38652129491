import Mathlib
import CallTime.Proofs.Agreement
import CallTime.Proofs.Caching

/-!
Activations and the stack.

A function is put on the stack when it is entered, and the task that takes it off again waits below
everything it leads to. Main statement: at every moment of every run the functions on the stack are
distinct, every activation ends with the stack it began with, also when the run is being abandoned, and a
pass over paths is made with their own function on top.
-/

namespace CallTime.Analysis

variable {setup : Setup} {base stack : List Function} {task : Task} {tasks more rest : List Task}
  {s t : State}

/-- Whether the task can be done with any stack, and without moving it for the tasks that follow. -/
def Task.quiet : Task → Bool
  | .paths _ _ => false
  | .leave => false
  | _ => true

/-- With the stack given, the tasks find the functions on top that they need, and leave the base when
they are done. -/
inductive Fits (base : List Function) : List Task → List Function → Prop
  | done : Fits base [] base
  | quiet {task : Task} {tasks : List Task} {stack : List Function} :
    task.quiet = true → Fits base tasks stack → Fits base (task :: tasks) stack
  | paths {f : Function} {ps : List Pass} {tasks : List Task} {stack : List Function} :
    Fits base tasks (f :: stack) → Fits base (.paths f ps :: tasks) (f :: stack)
  | leave {f : Function} {tasks : List Task} {stack : List Function} :
    Fits base tasks stack → Fits base (.leave :: tasks) (f :: stack)

theorem Fits.suffix (h : Fits base tasks stack) : ∃ extra, stack = extra ++ base := by
  induction h with
  | done => exact ⟨[], rfl⟩
  | quiet _ _ ih => exact ih
  | paths _ ih => exact ih
  | @leave f _ _ _ ih =>
    obtain ⟨extra, rfl⟩ := ih
    exact ⟨f :: extra, rfl⟩

theorem Fits.append (h : Fits base tasks stack) (hm : ∀ task ∈ more, task.quiet = true) :
    Fits base (more ++ tasks) stack := by
  induction more with
  | nil => exact h
  | cons task more ih =>
    obtain ⟨hq, hm⟩ := List.forall_mem_cons.mp hm
    exact .quiet hq (ih hm)

theorem Fits.eq_base (h : Fits base [] stack) : stack = base := by
  cases h
  rfl

theorem Fits.tail (h : Fits base (task :: tasks) stack) (hl : task ≠ .leave) :
    Fits base tasks stack := by
  cases h with
  | quiet _ h => exact h
  | paths h => exact h
  | leave => exact absurd rfl hl

/-- What an abandoned task does to the stack is what it would have done. -/
theorem Fits.abandon (h : Fits base (task :: tasks) s.stack) :
    Fits base tasks (task.abandon s).stack := by
  obtain ⟨insights, clock, stack, events⟩ := s
  cases h with
  | @quiet task _ _ hq h => cases task <;> first | exact h | cases hq
  | paths h => exact h
  | leave h => exact h

theorem stack_of_begin {f : Function} {r : Except Fault Bool} (h : begin setup f s = (r, t)) :
    t.stack = s.stack := by
  have hb := respects_begin frame_stack setup (tolerates_stack f.id _) (tolerates_stack _ _) s
  rwa [h] at hb

theorem stack_of_perform (he : ∀ f, task ≠ .enter f) (hl : task ≠ .leave)
    {r : Except Fault (List Task)} (h : task.perform setup s = (r, t)) : t.stack = s.stack := by
  have hs : (task.perform setup s).2.stack = s.stack := perform_stack he hl s
  rwa [h] at hs

theorem Fits.perform_error (h : Fits base (task :: tasks) s.stack) {e : Fault}
    (hp : task.perform setup s = (.error e, t)) : Fits base tasks t.stack := by
  have hl : task ≠ .leave := by
    rintro rfl
    cases hp
  have hs : t.stack = s.stack := by
    by_cases he : ∃ f, task = .enter f
    · obtain ⟨f, rfl⟩ := he
      simp only [Task.perform, Run.bind_apply] at hp
      rcases hb : begin setup f s with ⟨e' | b, u⟩ <;> rw [hb] at hp
      · cases hp
        exact stack_of_begin hb
      · cases b <;> cases hp
    · exact stack_of_perform (fun f hf => he ⟨f, hf⟩) hl hp
  exact hs ▸ h.tail hl

theorem Fits.perform (h : Fits base (task :: tasks) s.stack) {next : List Task}
    (hp : task.perform setup s = (.ok next, t)) : Fits base (next ++ tasks) t.stack := by
  cases task with
  | enter f =>
    obtain ⟨b, u, hb, hp⟩ := Run.bind_eq_ok hp
    have hu := stack_of_begin hb
    have hrest := h.tail (fun h => by cases h)
    cases b with
    | false =>
      cases hp
      exact hu ▸ hrest
    | true =>
      cases hp
      exact .quiet rfl (.paths (.leave (hu ▸ hrest)))
  | leave =>
    cases hp
    exact h.abandon
  | paths f ps =>
    have hs := stack_of_perform (fun _ h => by cases h) (fun h => by cases h) hp
    cases leaves_of_perform hp with
    | added => exact hs ▸ h.tail (fun h => by cases h)
    | adding f p ps =>
      rw [hs]
      generalize s.stack = stack at h
      cases h with
      | quiet hq _ => cases hq
      | paths h => exact .paths h
  | _ =>
    have hs := stack_of_perform (fun _ h => by cases h) (fun h => by cases h) hp
    refine hs ▸ (h.tail (fun h => by cases h)).append ?_
    cases leaves_of_perform hp <;> simp [Task.quiet]

def Moment.Busy (base : List Function) (rest : List Task) (m : Moment) : Prop :=
  ∃ more, more ≠ [] ∧ m.tasks = more ++ rest ∧ Fits base more m.state.stack

/-- A step leaves the tasks that wait alone. If it does the last one above them, then the stack is what
it was before the first. -/
theorem Moment.Busy.step (setup : Setup) {m : Moment} (h : m.Busy base rest) :
    (step setup m).Busy base rest ∨ (step setup m).tasks = rest ∧ (step setup m).state.stack = base := by
  have fits : ∃ more, (Analysis.step setup m).tasks = more ++ rest ∧
      Fits base more (Analysis.step setup m).state.stack := by
    obtain ⟨s, fault, _⟩ := m
    obtain ⟨more, hne, rfl, h⟩ := h
    cases more with
    | nil => exact absurd rfl hne
    | cons task tasks =>
      cases fault with
      | some e => exact ⟨tasks, rfl, h.abandon⟩
      | none =>
        simp only [Analysis.step, List.cons_append]
        rcases hp : task.perform setup s with ⟨e | next, t⟩
        · exact ⟨tasks, rfl, h.perform_error hp⟩
        · exact ⟨next ++ tasks, (List.append_assoc _ _ _).symm, h.perform hp⟩
  obtain ⟨more, ht, h⟩ := fits
  by_cases hne : more = []
  · subst hne
    exact .inr ⟨ht, h.eq_base⟩
  · exact .inl ⟨more, hne, ht, h⟩

section Runs

variable {insights : Insights} {clock : Clock} {a : Artifact} {n : Nat}

theorem exists_done (h : (moment setup insights clock a n).Busy base rest)
    (hrest : ∃ k, (moment setup insights clock a k).tasks = []) :
    ∃ k, n < k ∧ (moment setup insights clock a k).tasks = rest ∧
      (moment setup insights clock a k).state.stack = base ∧
      ∀ j, n ≤ j → j < k → (moment setup insights clock a j).Busy base rest := by
  classical
  have hidle : ∃ k, ¬(moment setup insights clock a (n + k)).Busy base rest := by
    obtain ⟨k, hk⟩ := hrest
    refine ⟨k, ?_⟩
    rintro ⟨more, hne, ht, -⟩
    rw [moment_of_le hk (Nat.le_add_left k n), hk] at ht
    exact hne (List.append_eq_nil_iff.mp ht.symm).1
  obtain ⟨k, hk⟩ : ∃ k, Nat.find hidle = k + 1 :=
    Nat.exists_eq_succ_of_ne_zero fun hz => (Nat.find_eq_zero hidle).mp hz h
  have hbusy : ∀ j, n ≤ j → j < n + (k + 1) → (moment setup insights clock a j).Busy base rest := by
    intro j hj hlt
    have hmin := Nat.find_min hidle (m := j - n) (by omega)
    rwa [not_not, Nat.add_sub_cancel' hj] at hmin
  refine ⟨n + (k + 1), by omega, ?_⟩
  have hspec := Nat.find_spec hidle
  rw [hk, ← Nat.add_assoc, moment_succ] at hspec
  obtain hb | ⟨ht, hs⟩ := (hbusy (n + k) (by omega) (by omega)).step setup
  · exact absurd hb hspec
  · rw [← moment_succ] at ht hs
    exact ⟨ht, hs, hbusy⟩

theorem step_fits {m : Moment} (h : Fits [] m.tasks m.state.stack) :
    Fits [] (step setup m).tasks (step setup m).state.stack := by
  by_cases hm : m.tasks = []
  · have hstep : step setup m = m := by rw [step, hm]
    rw [hstep]
    exact h
  · obtain ⟨more, -, ht, hf⟩ | ⟨ht, hs⟩ := Moment.Busy.step setup
      (⟨m.tasks, hm, (List.append_nil _).symm, h⟩ : m.Busy [] [])
    · rwa [ht, List.append_nil]
    · rw [ht, hs]
      exact .done

theorem moment_fits (setup : Setup) (insights : Insights) (clock : Clock) (a : Artifact) (n : Nat) :
    Fits [] (moment setup insights clock a n).tasks (moment setup insights clock a n).state.stack := by
  induction n with
  | zero =>
    refine Fits.quiet ?_ .done
    cases Function.ofArtifact? a <;> rfl
  | succ n ih =>
    rw [moment_succ]
    exact step_fits ih

def Moment.Noted (m : Moment) : Prop :=
  ∀ f ps, .paths f ps ∈ m.tasks → (m.state.insights.paths? f).isSome

theorem step_noted {m : Moment} (h : m.Noted) : (step setup m).Noted := by
  have hr := step_retains setup m
  obtain ⟨s, fault, tasks⟩ := m
  cases tasks with
  | nil => exact h
  | cons task tasks =>
    have hrest : ∀ f ps, .paths f ps ∈ tasks →
        ((step setup ⟨s, fault, task :: tasks⟩).state.insights.paths? f).isSome :=
      fun f ps hf => isSome_of_retains hr (h f ps (List.mem_cons_of_mem task hf))
    cases fault with
    | some e => exact hrest
    | none =>
      intro f ps hf
      simp only [step] at hr hrest hf ⊢
      rcases hp : task.perform setup s with ⟨e | next, t⟩ <;> rw [hp] at hr hrest hf
      · exact hrest f ps hf
      · obtain hf | hf := List.mem_append.mp hf
        · refine noted_perform (fun g qs he => isSome_of_retains hr (h g qs ?_)) hp hf
          exact he ▸ List.mem_cons_self
        · exact hrest f ps hf

theorem moment_noted (setup : Setup) (insights : Insights) (clock : Clock) (a : Artifact) (n : Nat) :
    (moment setup insights clock a n).Noted := by
  induction n with
  | zero =>
    intro f ps hf
    cases hfun : Function.ofArtifact? a <;> simp [moment, Moment.first, hfun] at hf
  | succ n ih =>
    rw [moment_succ]
    exact step_noted ih

end Runs

end CallTime.Analysis

namespace CallTime

namespace Path

def Owned (f : Function) (paths : List Path) : Prop := ∀ p ∈ paths, p.function = f

theorem lasting_owned (forest : Forest) : Lasting forest Owned where
  built f c c' paths h := (current_of_enumerate h).function_eq
  ways f ps qs h hp q hq := by
    have hw : q.way ∈ ps.map way := h ▸ List.mem_map_of_mem hq
    obtain ⟨p, hpm, he⟩ := List.mem_map.mp hw
    exact (congrArg Path.function he).symm.trans (hp p hpm)

end Path

namespace Analysis

variable {setup : Setup} {insights : Insights} {clock : Clock} {a : Artifact}

/-- The activation that begins at moment `n` ends: at some moment all that it led to has been done or
abandoned, and the stack is the one it began with, which until then has stayed below. -/
def Ends (m : Nat → Moment) (n : Nat) (rest : List Task) : Prop :=
  ∃ k, n < k ∧ (m k).tasks = rest ∧ (m k).state.stack = (m n).state.stack ∧
    ∀ j, n ≤ j → j < k → ∃ more extra, more ≠ [] ∧ (m j).tasks = more ++ rest ∧
      (m j).state.stack = extra ++ (m n).state.stack

theorem activation_ends (sound : setup.forest.Sound) (ha : setup.forest.Holds a)
    (hc : Clock.forLimit setup.settings.maxTicks = .ok clock) {n : Nat} {f : Function}
    {rest : List Task} (ht : (moment setup insights clock a n).tasks = .enter f :: rest) :
    Ends (moment setup insights clock a) n rest := by
  have hbusy : (moment setup insights clock a n).Busy (moment setup insights clock a n).state.stack
      rest := ⟨[.enter f], List.cons_ne_nil _ _, ht, .quiet rfl .done⟩
  obtain ⟨k, hk, -⟩ := exists_moment_eq_analyze sound insights ha hc
  obtain ⟨k, hlt, htasks, hstack, hall⟩ := exists_done hbusy ⟨k, hk⟩
  refine ⟨k, hlt, htasks, hstack, fun j hj hjk => ?_⟩
  obtain ⟨more, hne, hm, hf⟩ := hall j hj hjk
  obtain ⟨extra, hs⟩ := hf.suffix
  exact ⟨more, extra, hne, hm, hs⟩

/-- At every moment of a run the functions on the stack are distinct, an activation that is about to
begin will end with the stack as it is now, and a pass that is about to be made over the paths of a
function finds that function on top of the stack and none but its own paths. -/
theorem stack_discipline (sound : setup.forest.Sound)
    (owned : insights.Caches setup.forest Path.Owned) (ha : setup.forest.Holds a)
    (hc : Clock.forLimit setup.settings.maxTicks = .ok clock) :
    (∀ depth f s, (analyzeFunction setup depth f s).2.stack = s.stack) ∧
    (∃ n, (moment setup insights clock a n).tasks = [] ∧
      (moment setup insights clock a n).outcome a = analyze setup insights a) ∧
    ∀ n, ((moment setup insights clock a n).state.stack.map Function.id).Nodup ∧
      (∀ f rest, (moment setup insights clock a n).tasks = .enter f :: rest →
        Ends (moment setup insights clock a) n rest) ∧
      ∀ f p ps rest, (moment setup insights clock a n).tasks = .paths f (p :: ps) :: rest →
        (moment setup insights clock a n).state.stack.head? = some f ∧
        ∃ paths, (moment setup insights clock a n).state.insights.paths? f = some paths ∧
          ∀ q ∈ paths, q.function = f := by
  refine ⟨stack_analyzeFunction setup, exists_moment_eq_analyze sound insights ha hc, fun n => ?_⟩
  have horderly := moment_orderly sound insights clock ha n
  refine ⟨horderly.state.distinct, fun f rest => activation_ends sound ha hc, fun f p ps rest ht => ?_⟩
  have hmem : .paths f (p :: ps) ∈ (moment setup insights clock a n).tasks := by simp [ht]
  constructor
  · have hfits := moment_fits setup insights clock a n
    rw [ht] at hfits
    generalize (moment setup insights clock a n).state.stack = stack at hfits
    cases hfits with
    | quiet hq _ => cases hq
    | paths => rfl
  · have hsome := moment_noted setup insights clock a n f _ hmem
    obtain ⟨paths, hpaths⟩ := Option.isSome_iff_exists.mp hsome
    have hcaches := moment_caches (Path.lasting_owned setup.forest) sound owned clock ha n
    exact ⟨paths, hpaths, hcaches f (horderly.tasks _ hmem) paths hpaths⟩

/-- The two functions that call each other, with a budget that ends in the middle of the second. -/
def pingPongSetup : Setup where
  forest := (Session.start pingPong {}).forest
  settings := { maxTicks := .int 5 }

def pingPongMoment (n : Nat) : Moment :=
  moment pingPongSetup {} (.metered 5 0) (Session.start pingPong {}).module n

def Task.entered? : Task → Option String
  | .enter f => some f.name
  | _ => none

/-- With `ping` on the stack `pong` is entered; there the budget runs out, and `ping` is on the stack
again when that activation has been left. -/
theorem stack_discipline_pingPong :
    (analyze pingPongSetup {} (Session.start pingPong {}).module).result = .error (.exhausted 6 5) ∧
      (pingPongMoment 17).state.stack.map Function.name = ["ping"] ∧
      ∃ f rest, f.name = "pong" ∧ (pingPongMoment 17).tasks = .enter f :: rest ∧
        Ends pingPongMoment 17 rest := by
  have hresult : (analyze pingPongSetup {} (Session.start pingPong {}).module).result =
      .error (.exhausted 6 5) := by cbv
  have hstack : (pingPongMoment 17).state.stack.map Function.name = ["ping"] := by cbv
  have hhead : (pingPongMoment 17).tasks.head?.bind Task.entered? = some "pong" := by cbv
  have hs := Session.sound_start pingPong {}
  obtain ⟨-, -, h⟩ := @stack_discipline pingPongSetup {} _ _ hs.1 Insights.caches_empty hs.2
    (rfl : Clock.forLimit pingPongSetup.settings.maxTicks = .ok (.metered 5 0))
  obtain ⟨task, ht, hf⟩ := Option.bind_eq_some_iff.mp hhead
  obtain ⟨rest, ht⟩ := List.head?_eq_some_iff.mp ht
  refine ⟨hresult, hstack, ?_⟩
  cases task with
  | enter f => exact ⟨f, rest, Option.some.inj hf, ht, (h 17).2.1 f rest ht⟩
  | _ => cases hf

end Analysis

end CallTime

import Mathlib.Logic.Function.Iterate
import CallTime.Proofs.CallGraph
import CallTime.Proofs.Forest
import CallTime.Proofs.Run

/-!
The analysis as a machine that takes one step after the other.

A moment of a run is its state together with the tasks that are still to be done. The machine enters a
function whenever it is told to and has no bound on how deep that goes. Main statement: it comes to rest
with just what the analysis gives.
-/

namespace CallTime.Analysis

inductive Task where
  | enter (f : Function)
  /-- Visits nodes; `root` is the node the visit began at. -/
  | nodes (root : NodeId) (pending : List Artifact)
  | passes (a : Artifact) (passes : List Pass)
  | settle (call : Artifact) (g : Function)
  /-- Runs passes over the paths of a function. -/
  | paths (f : Function) (passes : List Pass)
  /-- Takes the innermost function off the stack. -/
  | leave

structure Moment where
  state : State
  /-- Set once the run is being abandoned. -/
  fault : Option Fault
  tasks : List Task

def State.push (s : State) (f : Function) : State := { s with stack := f :: s.stack }

def State.pop (s : State) : State := { s with stack := s.stack.tail }

namespace Task

/-- Begins with a task and gives the tasks it leaves to be done first. -/
def perform (setup : Setup) : Task → Run (List Task)
  | .enter f => do
    if ← begin setup f then
      modify (·.push f)
      return [.nodes f.id [f.artifact], .paths f (setup.passes.filter (·.overPaths)), .leave]
    else return []
  | .nodes _ [] => return []
  | .nodes root (a :: pending) => match nested? root a with
    | some g => return [.enter g, .nodes root pending]
    | none => do
      Run.tick 1
      return [.passes a (setup.passes.filter (!·.overPaths)), .nodes root (a.children ++ pending)]
  | .passes _ [] => return []
  | .passes a (p :: ps) => match p.callee? setup.forest a with
    | some g => return if ← approach setup a g then [.enter g, .settle a g, .passes a ps]
        else [.settle a g, .passes a ps]
    | none => do
      visit setup (fun _ => pure ()) a p
      return [.passes a ps]
  | .settle call g => do
    Analysis.settle setup call g
    return []
  | .paths _ [] => return []
  | .paths f (p :: ps) => do
    visitPaths f p
    return [.paths f ps]
  | .leave => do
    modify State.pop
    return []

def abandon : Task → State → State
  | .leave, s => s.pop
  | _, s => s

end Task

def Task.callee? (forest : Forest) : Task → Option Function
  | .passes a (p :: _) => p.callee? forest a
  | _ => none

def step (setup : Setup) (m : Moment) : Moment :=
  match m.tasks, m.fault with
  | [], _ => m
  | task :: tasks, some e => ⟨task.abandon m.state, some e, tasks⟩
  | task :: tasks, none => match task.perform setup m.state with
    | (.ok next, s) => ⟨s, none, next ++ tasks⟩
    | (.error e, s) => ⟨s, some e, tasks⟩

def Moment.first (insights : Insights) (clock : Clock) (a : Artifact) : Moment :=
  ⟨{ insights, clock }, none, [match Function.ofArtifact? a with
    | some f => .enter f
    | none => .nodes a.id [a]]⟩

/-- The moment after `n` steps of the analysis of a node. -/
def moment (setup : Setup) (insights : Insights) (clock : Clock) (a : Artifact) (n : Nat) : Moment :=
  (step setup)^[n] (Moment.first insights clock a)

theorem moment_succ (setup : Setup) (insights : Insights) (clock : Clock) (a : Artifact) (n : Nat) :
    moment setup insights clock a (n + 1) = step setup (moment setup insights clock a n) :=
  Function.iterate_succ_apply' _ _ _

theorem moment_of_le {setup : Setup} {insights : Insights} {clock : Clock} {a : Artifact} {n k : Nat}
    (h : (moment setup insights clock a n).tasks = []) (hk : n ≤ k) :
    moment setup insights clock a k = moment setup insights clock a n := by
  induction hk with
  | refl => rfl
  | step _ ih =>
    rw [moment_succ, ih, step, h]

def Moment.outcome (m : Moment) (a : Artifact) : Outcome where
  result := match m.fault with
    | some e => .error e
    | none => .ok ((Function.ofArtifact? a).bind m.state.insights.paths?)
  insights := m.state.insights
  clock := some m.state.clock
  depth := some m.state.stack.length
  events := m.state.events

theorem respects_perform {R : State → State → Prop} (F : Run.Frame R)
    (W : ∀ i k, k ≠ .callArgs → Run.Tolerates R i k) {setup : Setup} {task : Task}
    (he : ∀ f, task ≠ .enter f) (hl : task ≠ .leave) (hc : task.callee? setup.forest = none) :
    Run.Respects R (task.perform setup) := by
  cases task with
  | enter f => exact absurd rfl (he f)
  | nodes root pending =>
    cases pending with
    | nil => exact Run.respects_pure F _
    | cons a pending =>
      simp only [Task.perform]
      split
      · exact Run.respects_pure F _
      · exact Run.respects_bind F (Run.respects_tick F 1) fun _ => Run.respects_pure F _
  | passes a ps =>
    cases ps with
    | nil => exact Run.respects_pure F _
    | cons p ps =>
      have hp : p.callee? setup.forest a = none := hc
      simp only [Task.perform, hp]
      refine Run.respects_bind F ?_ fun _ => Run.respects_pure F _
      exact respects_visit_of_callee?_eq_none F
        (fun _ => respects_markRecursive F setup (W _ _ (by decide))) hp _
  | settle call g =>
    refine Run.respects_bind F ?_ fun _ => Run.respects_pure F _
    exact respects_settle F setup (W _ _ (by decide)) (W _ _ (by decide)) (W _ _ (by decide))
  | paths f ps =>
    cases ps with
    | nil => exact Run.respects_pure F _
    | cons p ps =>
      exact Run.respects_bind F (respects_visitPaths F (W _ _ (by decide)) p) fun _ =>
        Run.respects_pure F _
  | leave => exact absurd rfl hl

theorem perform_of_callee? {setup : Setup} {task : Task} {g : Function}
    (h : task.callee? setup.forest = some g) :
    ∃ a p ps, task = .passes a (p :: ps) ∧ p.callee? setup.forest a = some g ∧
      task.perform setup = do
        return if ← approach setup a g then [.enter g, .settle a g, .passes a ps]
          else [.settle a g, .passes a ps] := by
  cases task with
  | passes a ps =>
    cases ps with
    | nil => cases h
    | cons p ps =>
      have hp : p.callee? setup.forest a = some g := h
      exact ⟨a, p, ps, rfl, hp, by simp only [Task.perform, hp]⟩
  | _ => cases h

def Between (Q : Insights → Insights → Prop) (s t : State) : Prop := Q s.insights t.insights

theorem frame_between {Q : Insights → Insights → Prop} (refl : ∀ s, Q s s)
    (trans : ∀ {s t u}, Q s t → Q t u → Q s u) : Run.Frame (Between Q) where
  refl _ := refl _
  trans h h' := trans h h'
  events _ _ := refl _
  clock _ _ := refl _
  within h := h

def Task.Needs (forest : Forest) : Task → Function → Prop
  | .enter f, g => f = g
  | .passes a _, g => forest.target? a = some g
  | .settle _ f, g => f = g
  | _, _ => False

/-- The relation allows what the task writes besides arguments, signatures and marks. -/
structure Task.Writes (Q : Insights → Insights → Prop) (setup : Setup) (task : Task) : Prop where
  paths : ∀ g, task.Needs setup.forest g → Run.Respects (Between Q) (Run.pathsOf setup.forest g)
  store : ∀ call g, task = .settle call g → ∀ duration source,
    Run.Respects (Between Q) (storeDuration call duration source)
  drop : ∀ call g, task = .settle call g → Run.Respects (Between Q) (dropDerived call)
  sums : ∀ f ps, task = .paths f ps → Run.Respects (Between Q) (pathDurations f)

theorem respects_perform_between {Q : Insights → Insights → Prop} (F : Run.Frame (Between Q))
    (N : ∀ i k, k = .callArgs ∨ k = .analyzedArgs ∨ k = .recursiveCall →
      Run.Tolerates (Between Q) i k) {setup : Setup} {task : Task} (W : task.Writes Q setup) :
    Run.Respects (Between Q) (task.perform setup) := by
  have hpure (next : List Task) := Run.respects_pure F next
  cases task with
  | enter f =>
    refine Run.respects_bind F (respects_begin_of F setup (W.paths f rfl)
      (respects_noteSignature F (N _ _ (.inr (.inl rfl))))) fun _ => ?_
    exact Run.respects_ite (Run.respects_bind F (fun s => F.refl s) fun _ => hpure _) (hpure _)
  | nodes root pending =>
    cases pending with
    | nil => exact hpure _
    | cons a pending =>
      simp only [Task.perform]
      split
      · exact hpure _
      · exact Run.respects_bind F (Run.respects_tick F 1) fun _ => hpure _
  | passes a ps =>
    cases ps with
    | nil => exact hpure _
    | cons p ps =>
      cases hc : p.callee? setup.forest a with
      | none =>
        simp only [Task.perform, hc]
        refine Run.respects_bind F (respects_visit_of_callee?_eq_none F (fun _ => ?_) hc _)
          fun _ => hpure _
        exact respects_markRecursive F setup (N _ _ (.inr (.inr rfl)))
      | some g =>
        simp only [Task.perform, hc]
        exact Run.respects_bind F (respects_approach_of F setup a
          (respects_propagate F _ a (N _ _ (.inl rfl))) (W.paths g (target?_of_callee? hc)))
          fun _ => hpure _
  | settle call g =>
    exact Run.respects_bind F (respects_settle_of F setup (W.paths g rfl) (W.store call g rfl)
      (W.drop call g rfl)) fun _ => hpure _
  | paths f ps =>
    cases ps with
    | nil => exact hpure _
    | cons p ps =>
      exact Run.respects_bind F (respects_visitPaths_of F (W.sums f _ rfl) p) fun _ => hpure _
  | leave => exact Run.respects_bind F (fun s => F.refl s) fun _ => hpure _

/-- A step relates what is known before and after it, if the task that is next allows that. -/
theorem step_between {Q : Insights → Insights → Prop} (F : Run.Frame (Between Q))
    (N : ∀ i k, k = .callArgs ∨ k = .analyzedArgs ∨ k = .recursiveCall →
      Run.Tolerates (Between Q) i k) {setup : Setup} {m : Moment}
    (W : ∀ task tasks, m.tasks = task :: tasks → m.fault = none → task.Writes Q setup) :
    Between Q m.state (step setup m).state := by
  obtain ⟨s, fault, tasks⟩ := m
  cases tasks with
  | nil => exact F.refl s
  | cons task tasks =>
    cases fault with
    | some e => cases task <;> exact F.refl s
    | none =>
      have h := respects_perform_between F N (W task tasks rfl rfl) s
      simp only [step]
      rcases hp : task.perform setup s with ⟨e | next, t⟩ <;> rw [hp] at h <;> exact h

inductive Task.Leaves (setup : Setup) : Task → List Task → Prop
  | refused (f : Function) : Leaves setup (.enter f) []
  | entered (f : Function) : Leaves setup (.enter f)
    [.nodes f.id [f.artifact], .paths f (setup.passes.filter (·.overPaths)), .leave]
  | visited (root : NodeId) : Leaves setup (.nodes root []) []
  | nested {root : NodeId} {a : Artifact} (pending : List Artifact) {g : Function}
    (h : nested? root a = some g) :
    Leaves setup (.nodes root (a :: pending)) [.enter g, .nodes root pending]
  | node {root : NodeId} {a : Artifact} (pending : List Artifact) (h : nested? root a = none) :
    Leaves setup (.nodes root (a :: pending))
      [.passes a (setup.passes.filter (!·.overPaths)), .nodes root (a.children ++ pending)]
  | passed (a : Artifact) : Leaves setup (.passes a []) []
  | silent {a : Artifact} {p : Pass} (ps : List Pass) (h : p.callee? setup.forest a = none) :
    Leaves setup (.passes a (p :: ps)) [.passes a ps]
  | known {a : Artifact} {p : Pass} (ps : List Pass) {g : Function}
    (h : p.callee? setup.forest a = some g) :
    Leaves setup (.passes a (p :: ps)) [.settle a g, .passes a ps]
  | called {a : Artifact} {p : Pass} (ps : List Pass) {g : Function}
    (h : p.callee? setup.forest a = some g) :
    Leaves setup (.passes a (p :: ps)) [.enter g, .settle a g, .passes a ps]
  | settled (call : Artifact) (g : Function) : Leaves setup (.settle call g) []
  | added (f : Function) : Leaves setup (.paths f []) []
  | adding (f : Function) (p : Pass) (ps : List Pass) : Leaves setup (.paths f (p :: ps)) [.paths f ps]
  | left : Leaves setup .leave []

theorem leaves_of_perform {setup : Setup} {task : Task} {s t : State} {next : List Task}
    (h : task.perform setup s = (.ok next, t)) : task.Leaves setup next := by
  cases task with
  | enter f =>
    obtain ⟨b, u, -, h⟩ := Run.bind_eq_ok h
    cases b <;> cases h
    · exact .refused f
    · exact .entered f
  | nodes root pending =>
    cases pending with
    | nil =>
      cases h
      exact .visited root
    | cons a pending =>
      simp only [Task.perform] at h
      cases hg : nested? root a with
      | some g =>
        rw [hg] at h
        cases h
        exact .nested pending hg
      | none =>
        rw [hg] at h
        obtain ⟨_, u, -, h⟩ := Run.bind_eq_ok h
        cases h
        exact .node pending hg
  | passes a ps =>
    cases ps with
    | nil =>
      cases h
      exact .passed a
    | cons p ps =>
      cases hc : p.callee? setup.forest a with
      | none =>
        simp only [Task.perform, hc] at h
        obtain ⟨_, u, -, h⟩ := Run.bind_eq_ok h
        cases h
        exact .silent ps hc
      | some g =>
        simp only [Task.perform, hc] at h
        obtain ⟨b, u, -, h⟩ := Run.bind_eq_ok h
        cases b <;> cases h
        · exact .known ps hc
        · exact .called ps hc
  | settle call g =>
    obtain ⟨_, u, -, h⟩ := Run.bind_eq_ok h
    cases h
    exact .settled call g
  | paths f ps =>
    cases ps with
    | nil =>
      cases h
      exact .added f
    | cons p ps =>
      obtain ⟨_, u, -, h⟩ := Run.bind_eq_ok h
      cases h
      exact .adding f p ps
  | leave =>
    cases h
    exact .left

def Task.Within (P : Artifact → Prop) : Task → Prop
  | .enter f => P f.artifact
  | .nodes _ pending => ∀ a ∈ pending, P a
  | .passes a _ => P a
  | .settle call g => P call ∧ P g.artifact
  | .paths f _ => P f.artifact
  | .leave => True

theorem perform_within {P : Artifact → Prop} {setup : Setup}
    (children : ∀ a, P a → ∀ c ∈ a.children, P c)
    (target : ∀ a g, P a → setup.forest.target? a = some g → P g.artifact)
    {task : Task} (ht : task.Within P) {s t : State} {next : List Task}
    (h : task.perform setup s = (.ok next, t)) : ∀ task' ∈ next, task'.Within P := by
  cases leaves_of_perform h with
  | entered f => simp [Task.Within, show P f.artifact from ht]
  | @nested root a pending g hg =>
    have ha : P g.artifact := artifact_of_nested? hg ▸ ht a List.mem_cons_self
    simpa [Task.Within, ha] using fun b hb => ht b (List.mem_cons_of_mem a hb)
  | @node root a pending hg =>
    have ha := ht a List.mem_cons_self
    simp only [List.mem_cons, List.not_mem_nil, or_false, forall_eq_or_imp, forall_eq]
    refine ⟨ha, fun b hb => ?_⟩
    obtain hb | hb := List.mem_append.mp hb
    · exact children a ha b hb
    · exact ht b (List.mem_cons_of_mem a hb)
  | @silent a => simp [Task.Within, show P a from ht]
  | @known a p ps g hg =>
    have hg' : P g.artifact := target a g ht (target?_of_callee? hg)
    simp [Task.Within, hg', show P a from ht]
  | @called a p ps g hg =>
    have hg' : P g.artifact := target a g ht (target?_of_callee? hg)
    simp [Task.Within, hg', show P a from ht]
  | adding f => simp [Task.Within, show P f.artifact from ht]
  | _ => exact List.forall_mem_nil _

def Reaches (setup : Setup) (m m' : Moment) : Prop := ∃ n, (step setup)^[n] m = m'

variable {setup : Setup}

theorem Reaches.refl (m : Moment) : Reaches setup m m := ⟨0, rfl⟩

theorem Reaches.trans {m m' m'' : Moment} (h : Reaches setup m m') (h' : Reaches setup m' m'') :
    Reaches setup m m'' := by
  obtain ⟨n, rfl⟩ := h
  obtain ⟨k, rfl⟩ := h'
  exact ⟨k + n, Function.iterate_add_apply (step setup) k n m⟩

theorem Reaches.head {m m' : Moment} (h : Reaches setup (step setup m) m') : Reaches setup m m' :=
  Reaches.trans ⟨1, rfl⟩ h

def resume (r : Except Fault Unit × State) (tasks : List Task) : Moment :=
  match r with
  | (.ok _, s) => ⟨s, none, tasks⟩
  | (.error e, s) => ⟨s, some e, tasks⟩

/-- A task that does `x` itself and leaves the rest of its computation to other tasks. -/
theorem reaches_of_perform {α : Type} {task : Task} {x : Run α} {next : α → List Task}
    {y : α → Run Unit} {s : State} {tasks : List Task}
    (hp : task.perform setup = do return next (← x))
    (h : ∀ a t, x s = (.ok a, t) →
      Reaches setup ⟨t, none, next a ++ tasks⟩ (resume (y a t) tasks)) :
    Reaches setup ⟨s, none, task :: tasks⟩ (resume ((x >>= y) s) tasks) := by
  apply Reaches.head
  simp only [step, hp, Run.bind_apply]
  rcases hx : x s with ⟨e | a, t⟩
  · exact Reaches.refl _
  · exact h a t hx

theorem reaches_seq {m : Moment} {x y : Run Unit} {s : State} {task : Task} {tasks : List Task}
    (hx : Reaches setup m (resume (x s) (task :: tasks))) (ha : task.abandon = fun t => t)
    (hy : ∀ t, x s = (.ok (), t) →
      Reaches setup ⟨t, none, task :: tasks⟩ (resume (y t) tasks)) :
    Reaches setup m (resume ((x >>= fun _ => y) s) tasks) := by
  refine hx.trans ?_
  rw [Run.bind_apply]
  rcases h : x s with ⟨e | ⟨⟩, t⟩
  · apply Reaches.head
    simp only [resume, step, ha]
    exact Reaches.refl _
  · exact hy t h

theorem reaches_paths (f : Function) (ps : List Pass) (s : State) (tasks : List Task) :
    Reaches setup ⟨s, none, .paths f ps :: tasks⟩ (resume (ps.forM (visitPaths f) s) tasks) := by
  induction ps generalizing s with
  | nil => exact Reaches.head (Reaches.refl _)
  | cons p ps ih => exact reaches_of_perform (x := visitPaths f p) rfl fun _ t _ => ih t

theorem reaches_settle (call : Artifact) (g : Function) (s : State) (tasks : List Task) :
    Reaches setup ⟨s, none, .settle call g :: tasks⟩ (resume (settle setup call g s) tasks) := by
  apply Reaches.head
  simp only [step, Task.perform, Run.bind_apply]
  rcases settle setup call g s with ⟨e | ⟨⟩, t⟩ <;> exact Reaches.refl _

section Visits

variable {enter : Function → Run Unit} {l : List Function} (sound : setup.forest.Sound)
  (keeps : ∀ g, Run.Respects (fun s t => t.stack = s.stack) (enter g))
  (enters : ∀ g, setup.forest.Holds g.artifact → ∀ s, s.stack = l → ∀ tasks,
    Reaches setup ⟨s, none, .enter g :: tasks⟩ (resume (enter g s) tasks))

include sound keeps enters

theorem reaches_passes (a : Artifact) (ps : List Pass) (s : State) (hs : s.stack = l)
    (tasks : List Task) :
    Reaches setup ⟨s, none, .passes a ps :: tasks⟩ (resume (ps.forM (visit setup enter a) s) tasks) := by
  induction ps generalizing s with
  | nil => exact Reaches.head (Reaches.refl _)
  | cons p ps ih =>
    change Reaches setup _ (resume ((visit setup enter a p >>= fun _ => ps.forM _) s) tasks)
    have hv := respects_visit frame_stack (.of_all frame_stack tolerates_stack setup a)
      (fun _ g _ => keeps g) p s
    cases hc : p.callee? setup.forest a with
    | none =>
      rw [visit_of_callee?_eq_none hc enter fun _ => pure ()] at hv ⊢
      refine reaches_of_perform (by simp only [Task.perform, hc]; rfl) fun _ t ht => ?_
      rw [ht] at hv
      exact ih t (hv.trans hs)
    | some g =>
      rw [visit_of_callee?_eq_some hc, bind_assoc (m := Run)]
      refine reaches_of_perform (x := approach setup a g) (by simp only [Task.perform, hc]; rfl)
        fun b t ht => ?_
      have hb := respects_approach frame_stack setup a (tolerates_stack g.id _) (tolerates_stack _ _) s
      rw [ht] at hb
      refine reaches_seq (y := ps.forM _) ?_ (rfl : Task.abandon (.passes a ps) = _) fun u hu => ?_
      · cases b with
        | false => exact reaches_settle a g t _
        | true =>
          have hg := sound.target (target?_of_callee? hc)
          exact reaches_seq (enters g hg t (hb.trans hs) _) rfl fun u _ => reaches_settle a g u _
      · rw [visit_of_callee?_eq_some hc, Run.bind_of_ok ht, hu] at hv
        exact ih u (hv.trans hs)

theorem reaches_nodes (root : NodeId) (pending : List Artifact)
    (hp : ∀ a ∈ pending, setup.forest.Holds a) (s : State) (hs : s.stack = l) (tasks : List Task) :
    Reaches setup ⟨s, none, .nodes root pending :: tasks⟩
      (resume (visitFrom setup enter root pending s) tasks) := by
  induction pending using visitFrom.induct root generalizing s with
  | case1 =>
    rw [visitFrom]
    exact Reaches.head (Reaches.refl _)
  | case2 a pending g hg ih =>
    rw [visitFrom, hg]
    have ha : g.artifact = a := artifact_of_nested? hg
    apply Reaches.head
    simp only [step, Task.perform, hg]
    refine reaches_seq (enters g (ha ▸ hp a List.mem_cons_self) s hs _) rfl fun t ht => ?_
    have hk := keeps g s
    rw [ht] at hk
    exact ih (fun b hb => hp b (List.mem_cons_of_mem a hb)) t (hk.trans hs)
  | case3 a pending hg ih =>
    rw [visitFrom, hg]
    refine reaches_of_perform (by simp only [Task.perform, hg]; rfl) fun _ t ht => ?_
    have hk := Run.respects_tick frame_stack 1 s
    rw [ht] at hk
    refine reaches_seq (reaches_passes sound keeps enters a _ t (hk.trans hs) _) rfl fun u hu => ?_
    have hk' : ((setup.passes.filter (!·.overPaths)).forM (visit setup enter a) t).2.stack = t.stack :=
      Run.respects_forM frame_stack
        (fun p _ => respects_visit frame_stack (.of_all frame_stack tolerates_stack setup a)
          (fun _ g _ => keeps g) p) t
    rw [hu] at hk'
    refine ih (fun b hb => ?_) u (hk'.trans (hk.trans hs))
    obtain hb | hb := List.mem_append.mp hb
    · exact sound.closed a (hp a List.mem_cons_self) b hb
    · exact hp b (List.mem_cons_of_mem a hb)

end Visits

def idle (forest : Forest) (stack : List Function) : Nat :=
  (forest.nodes.toList.filter Artifact.isFunction).countP fun a => !stack.any (·.id = a.id)

theorem idle_nil (forest : Forest) : idle forest [] = functionCount forest := by
  simp [idle, functionCount]

theorem mem_functions {forest : Forest} {f : Function} (h : forest.Holds f.artifact) :
    f.artifact ∈ forest.nodes.toList.filter Artifact.isFunction :=
  List.mem_filter.mpr ⟨h.mem, rfl⟩

theorem idle_pos {forest : Forest} {stack : List Function} {f : Function}
    (h : forest.Holds f.artifact) (hf : stack.any (·.id = f.id) = false) : 0 < idle forest stack :=
  List.countP_pos_iff.mpr ⟨f.artifact, mem_functions h, congrArg not hf⟩

theorem idle_push {forest : Forest} {stack : List Function} {f : Function}
    (h : forest.Holds f.artifact) (hf : stack.any (·.id = f.id) = false) :
    idle forest (f :: stack) < idle forest stack := by
  refine countP_lt (fun a _ ha => ?_) (mem_functions h) ?_ ?_
  · simp only [List.any_cons, Bool.not_or, Bool.and_eq_true] at ha
    exact ha.2
  · exact congrArg not hf
  · simp

theorem begin_of_active {f : Function} {s : State} (h : s.stack.any (·.id = f.id) = true) :
    begin setup f s = (do
      Run.record (.entered f)
      let _ ← Run.pathsOf setup.forest f
      return false) s := by
  rw [begin, Run.bind_of_ok (Run.record_apply _ s), Run.bind_of_ok (Run.isActive_apply f _),
    Run.bind_of_ok (Run.record_apply _ s), show List.any _ _ = true from h]
  rfl

theorem inactive_of_begin {f : Function} {s t : State} (h : begin setup f s = (.ok true, t)) :
    s.stack.any (·.id = f.id) = false := by
  rw [Bool.eq_false_iff]
  intro ha
  rw [begin_of_active ha, Run.bind_of_ok (Run.record_apply _ s), Run.bind_apply] at h
  rcases hp : Run.pathsOf setup.forest f { s with events := s.events.push (.entered f) }
    with ⟨_ | _, _⟩ <;> rw [hp] at h <;> cases h

theorem analyzeFunction_of_active {f : Function} {s : State}
    (h : s.stack.any (·.id = f.id) = true) (depth : Nat) :
    analyzeFunction setup (depth + 1) f s = analyzeFunction setup 0 f s := by
  simp only [analyzeFunction, Run.bind_apply, begin_of_active h, Run.record_apply]
  rcases Run.pathsOf setup.forest f { s with events := s.events.push (.entered f) } with ⟨_ | _, _⟩ <;>
    rfl

theorem reaches_within (f : Function) (body : Run Unit) (s : State) (tasks : List Task) :
    Reaches setup (resume (body (s.push f)) (.leave :: tasks)) (resume (Run.within f body s) tasks) := by
  have hw : Run.within f body s = ((body (s.push f)).1, (body (s.push f)).2.pop) := rfl
  rw [hw]
  rcases body (s.push f) with ⟨_ | _, t⟩ <;> exact Reaches.head (Reaches.refl _)

/-- The machine enters a function just as the analysis does, as long as the analysis may go as deep as
there are idle functions. -/
theorem reaches_enter (sound : setup.forest.Sound) (depth : Nat) (f : Function)
    (hf : setup.forest.Holds f.artifact) (s : State) (hs : idle setup.forest s.stack ≤ depth)
    (tasks : List Task) :
    Reaches setup ⟨s, none, .enter f :: tasks⟩ (resume (analyzeFunction setup depth f s) tasks) := by
  induction depth generalizing f s tasks with
  | zero =>
    have ha : s.stack.any (·.id = f.id) = true := by
      rw [← Bool.not_eq_false]
      intro ha
      have := idle_pos hf ha
      omega
    rw [← analyzeFunction_of_active ha 0]
    apply Reaches.head
    simp only [step, Task.perform, analyzeFunction, Run.bind_apply, begin_of_active ha, Run.record_apply]
    rcases Run.pathsOf setup.forest f { s with events := s.events.push (.entered f) }
      with ⟨_ | _, _⟩ <;> exact Reaches.refl _
  | succ depth ih =>
    apply Reaches.head
    simp only [step, Task.perform, analyzeFunction, Run.bind_apply]
    rcases hb : begin setup f s with ⟨_ | _ | _, t⟩
    · exact Reaches.refl _
    · exact Reaches.refl _
    · have hi := idle_push hf (inactive_of_begin hb)
      have ht : t.stack = s.stack := by
        have := respects_begin frame_stack setup (tolerates_stack f.id _) (tolerates_stack _ _) s
        rwa [hb] at this
      have hn := reaches_nodes sound (stack_analyzeFunction setup depth)
        (fun g hg u hu => ih g hg u (by rw [hu]; omega)) (l := f :: s.stack)
        f.id [f.artifact] (by simpa using hf) (t.push f) (by rw [State.push, ht])
      have hp := reaches_seq (hn (.paths f (setup.passes.filter (·.overPaths)) :: .leave :: tasks))
        rfl fun u _ => reaches_paths f _ u (.leave :: tasks)
      exact hp.trans (reaches_within f _ t tasks)

/-- The machine comes to rest, and then with the outcome of the analysis. -/
theorem exists_moment_eq_analyze (sound : setup.forest.Sound) (insights : Insights) {a : Artifact}
    (ha : setup.forest.Holds a) {clock : Clock}
    (hc : Clock.forLimit setup.settings.maxTicks = .ok clock) :
    ∃ n, (moment setup insights clock a n).tasks = [] ∧
      (moment setup insights clock a n).outcome a = analyze setup insights a := by
  have hi : idle setup.forest [] ≤ functionCount setup.forest := Nat.le_of_eq (idle_nil _)
  cases hf : Function.ofArtifact? a with
  | some f =>
    have hfa : f.artifact = a := by
      cases a <;> cases hf
      rfl
    obtain ⟨n, hn⟩ := reaches_enter sound (functionCount setup.forest) f (hfa ▸ ha)
      { insights, clock } hi []
    refine ⟨n, ?_⟩
    have hm : moment setup insights clock a n =
        (step setup)^[n] ⟨{ insights, clock }, none, [.enter f]⟩ := by
      rw [moment, Moment.first, hf]
    rw [hm, hn, analyze, hc]
    simp only [hf, ExceptT.run, Run.bind_apply]
    rcases analyzeFunction setup (functionCount setup.forest) f { insights, clock } with ⟨_ | _, t⟩
    · exact ⟨rfl, rfl⟩
    · exact ⟨rfl, by simp [resume, Moment.outcome, hf]; rfl⟩
  | none =>
    obtain ⟨n, hn⟩ := reaches_nodes sound (stack_analyzeFunction setup (functionCount setup.forest))
      (fun g hg u hu => reaches_enter sound _ g hg u (by rw [hu]; exact hi)) (l := [])
      a.id [a] (by simpa using ha) { insights, clock } rfl []
    refine ⟨n, ?_⟩
    have hm : moment setup insights clock a n =
        (step setup)^[n] ⟨{ insights, clock }, none, [.nodes a.id [a]]⟩ := by
      rw [moment, Moment.first, hf]
    rw [hm, hn, analyze, hc]
    simp only [hf, ExceptT.run, Run.bind_apply]
    rcases visitFrom setup (analyzeFunction setup (functionCount setup.forest)) a.id [a]
      { insights, clock } with ⟨_ | _, t⟩
    · exact ⟨rfl, rfl⟩
    · exact ⟨rfl, by simp [resume, Moment.outcome, hf]; rfl⟩

end CallTime.Analysis

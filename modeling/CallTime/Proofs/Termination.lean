import Mathlib
import CallTime.Proofs.Machine

/-!
Every analysis ends.

A function that is under analysis is not entered again, so the functions on the stack are distinct.
Main statement: for every sound forest, whatever is known at the start, the machine comes to rest with
the outcome of the analysis, and its stack never holds more functions than the forest.
-/

namespace CallTime.Analysis

variable {setup : Setup}

structure State.Orderly (forest : Forest) (s : State) : Prop where
  distinct : (s.stack.map Function.id).Nodup
  held : ∀ f ∈ s.stack, forest.Holds f.artifact

theorem State.Orderly.of_stack {forest : Forest} {s t : State} (h : s.Orderly forest)
    (ht : t.stack = s.stack) : t.Orderly forest :=
  ⟨ht ▸ h.distinct, ht ▸ h.held⟩

theorem State.Orderly.push {forest : Forest} {s : State} (h : s.Orderly forest) {f : Function}
    (hf : forest.Holds f.artifact) (ha : s.stack.any (·.id = f.id) = false) :
    (s.push f).Orderly forest := by
  refine ⟨List.nodup_cons.mpr ⟨fun hm => ?_, h.distinct⟩, fun g hg => ?_⟩
  · obtain ⟨g, hg, he⟩ := List.mem_map.mp hm
    have := List.any_eq_false.mp ha g hg
    simp [he] at this
  · obtain rfl | hg := List.mem_cons.mp hg
    · exact hf
    · exact h.held g hg

theorem State.Orderly.pop {forest : Forest} {s : State} (h : s.Orderly forest) :
    s.pop.Orderly forest := by
  refine ⟨?_, fun g hg => h.held g (List.mem_of_mem_tail hg)⟩
  change (s.stack.tail.map Function.id).Nodup
  rw [List.map_tail]
  exact h.distinct.tail

theorem State.Orderly.length_le {forest : Forest} {s : State} (h : s.Orderly forest) :
    s.stack.length ≤ functionCount forest := by
  have hn : (s.stack.map Function.artifact).Nodup := by
    apply List.Nodup.of_map Artifact.id
    simpa [List.map_map, Function.comp_def] using h.distinct
  have hs : s.stack.map Function.artifact ⊆ forest.nodes.toList.filter Artifact.isFunction := by
    intro a ha
    obtain ⟨f, hf, rfl⟩ := List.mem_map.mp ha
    exact mem_functions (h.held f hf)
  have := (hn.subperm hs).length_le
  rwa [List.length_map] at this

theorem perform_stack {task : Task} (he : ∀ f, task ≠ .enter f) (hl : task ≠ .leave) :
    Run.Respects (fun s t => t.stack = s.stack) (task.perform setup) := by
  cases hc : task.callee? setup.forest with
  | none => exact respects_perform frame_stack (fun i k _ => tolerates_stack i k) he hl hc
  | some g =>
    obtain ⟨a, p, ps, -, -, hp⟩ := perform_of_callee? hc
    rw [hp]
    exact Run.respects_bind frame_stack (respects_approach frame_stack setup a
      (tolerates_stack _ _) (tolerates_stack _ _)) fun _ => Run.respects_pure frame_stack _

theorem perform_orderly {task : Task} (ht : task.Within setup.forest.Holds) {s : State}
    (hs : s.Orderly setup.forest) : (task.perform setup s).2.Orderly setup.forest := by
  cases task with
  | enter f =>
    have hb := respects_begin frame_stack setup (tolerates_stack f.id _) (tolerates_stack _ _) s
    simp only [Task.perform, Run.bind_apply]
    rcases h : begin setup f s with ⟨_ | _ | _, t⟩ <;> rw [h] at hb
    · exact hs.of_stack hb
    · exact hs.of_stack hb
    · exact (hs.of_stack hb).push ht (hb ▸ inactive_of_begin h)
  | leave => exact hs.pop
  | _ => exact hs.of_stack (perform_stack (fun _ h => by cases h) (fun h => by cases h) s)

structure Moment.Orderly (forest : Forest) (m : Moment) : Prop where
  state : m.state.Orderly forest
  tasks : ∀ task ∈ m.tasks, task.Within forest.Holds

theorem step_orderly (sound : setup.forest.Sound) {m : Moment} (h : m.Orderly setup.forest) :
    (step setup m).Orderly setup.forest := by
  obtain ⟨s, fault, tasks⟩ := m
  cases tasks with
  | nil => exact h
  | cons task tasks =>
    have hr : ∀ task' ∈ tasks, task'.Within setup.forest.Holds :=
      fun task' ht => h.tasks task' (List.mem_cons_of_mem task ht)
    cases fault with
    | some e =>
      refine ⟨?_, hr⟩
      cases task with
      | leave => exact h.state.pop
      | _ => exact h.state
    | none =>
      have ht := h.tasks task List.mem_cons_self
      have hs := perform_orderly ht h.state
      simp only [step]
      rcases hp : task.perform setup s with ⟨e | next, t⟩ <;> rw [hp] at hs
      · exact ⟨hs, hr⟩
      · refine ⟨hs, fun task' hm => ?_⟩
        obtain hm | hm := List.mem_append.mp hm
        · exact perform_within sound.closed (fun _ _ _ hg => sound.target hg) ht hp task' hm
        · exact hr task' hm

theorem moment_orderly (sound : setup.forest.Sound) (insights : Insights) (clock : Clock)
    {a : Artifact} (ha : setup.forest.Holds a) (n : Nat) :
    (moment setup insights clock a n).Orderly setup.forest := by
  induction n with
  | zero =>
    refine ⟨⟨List.nodup_nil, List.forall_mem_nil _⟩, fun task ht => ?_⟩
    obtain rfl := List.mem_singleton.mp ht
    cases hf : Function.ofArtifact? a with
    | some f =>
      cases a <;> cases hf
      exact ha
    | none => exact fun b hb => List.mem_singleton.mp hb ▸ ha
  | succ n ih =>
    rw [moment, Function.iterate_succ_apply']
    exact step_orderly sound ih

/-- Every analysis ends: at once if there is no clock for the budget, else after some number of steps.
On the way the stack never holds more functions than there are. -/
theorem analyze_comes_to_rest (setup : Setup) (sound : setup.forest.Sound) (insights : Insights)
    (a : Artifact) (ha : setup.forest.Holds a) :
    match Clock.forLimit setup.settings.maxTicks with
    | .error e => (analyze setup insights a).result = .error e
    | .ok clock =>
      (∃ n, (moment setup insights clock a n).tasks = [] ∧
        (moment setup insights clock a n).outcome a = analyze setup insights a) ∧
      ∀ n, (moment setup insights clock a n).state.stack.length ≤ functionCount setup.forest := by
  cases hc : Clock.forLimit setup.settings.maxTicks with
  | error e => rw [analyze, hc]
  | ok clock =>
    refine ⟨exists_moment_eq_analyze sound insights ha hc, fun n => ?_⟩
    exact (moment_orderly sound insights clock ha n).state.length_le

def pingPong : List Draft :=
  [.defining "ping" [] [.calling "pong" []], .defining "pong" [] [.calling "ping" []]]

theorem pingPong_comes_to_rest :
    functionCount (Session.start pingPong {}).forest = 2 ∧
      (∃ n, (moment { forest := (Session.start pingPong {}).forest } {} (.unbounded 0)
        (Session.start pingPong {}).module n).tasks = []) ∧
      ∀ n, (moment { forest := (Session.start pingPong {}).forest } {} (.unbounded 0)
        (Session.start pingPong {}).module n).state.stack.length ≤ 2 := by
  have sound := Session.sound_start pingPong {}
  have count : functionCount (Session.start pingPong {}).forest = 2 := by cbv
  generalize Session.start pingPong {} = s at sound count
  obtain ⟨⟨n, hn, -⟩, hs⟩ := analyze_comes_to_rest { forest := s.forest } sound.1 {} s.module sound.2
  exact ⟨count, ⟨n, hn⟩, fun n => count ▸ hs n⟩

end CallTime.Analysis

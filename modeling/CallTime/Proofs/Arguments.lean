import CallTime.Proofs.CallGraph
import CallTime.Proofs.Termination

/-!
The arguments that a function is analysed with, and that a call is estimated with.

They are kept on the called function, so a later call of it replaces them. Main statement: at every
moment they are those of the latest visit of a call of the function. A call of a function that is not
recursive is therefore estimated with its own arguments, and such a function keeps its arguments as
long as it is under analysis.
-/

namespace CallTime.Analysis

open Relation

variable {setup : Setup}

def Moment.handed? (setup : Setup) (m : Moment) : Option (Function × List Artifact) :=
  match m.fault, m.tasks with
  | none, .passes a (p :: _) :: _ => match p.callee? setup.forest a with
    | some g => match resolveArguments setup.forest m.state.insights a with
      | .ok arguments => some (g, arguments)
      | .error _ => none
    | none => none
  | _, _ => none

/-- The arguments that the latest of the first `n` steps from a moment has handed on to a function. -/
def Moment.lastHanded? (setup : Setup) (m : Moment) (f : Function) : Nat → Option (List Artifact)
  | 0 => none
  | n + 1 => match ((step setup)^[n] m).handed? setup with
    | some (g, arguments) => if g.id = f.id then some arguments else m.lastHanded? setup f n
    | none => m.lastHanded? setup f n

def SameCallArgs : State → State → Prop := Spares fun _ k => k ≠ .callArgs

theorem SameCallArgs.callArgs? {s t : State} (h : SameCallArgs s t) (f : Function) :
    t.insights.callArgs? f = s.insights.callArgs? f :=
  Insights.callArgs?_congr (h f.id .callArgs fun hn => hn rfl)

theorem callArgs?_put_eq (s : State) (g f : Function) (arguments : List Artifact) :
    (s.put g.id .callArgs (.note (.arguments arguments))).insights.callArgs? f =
      if g.id = f.id then some arguments else s.insights.callArgs? f := by
  split
  · next h =>
    rw [h]
    exact s.callArgs?_put f arguments
  · next h => exact Insights.callArgs?_congr (s.get?_put_of_ne (.inl h) _)

theorem approach_callArgs (a : Artifact) (g f : Function) (s : State) :
    (approach setup a g s).2.insights.callArgs? f =
      match resolveArguments setup.forest s.insights a with
      | .ok arguments => if g.id = f.id then some arguments else s.insights.callArgs? f
      | .error _ => s.insights.callArgs? f := by
  have hrest : Run.Respects SameCallArgs (do
      if ← shouldAnalyze setup a g then return true
      let _ ← Run.pathsOf setup.forest g
      return false : Run Bool) := by
    refine Run.respects_bind frame_spares (respects_shouldAnalyze frame_spares setup a g) fun _ => ?_
    refine Run.respects_ite (Run.respects_pure frame_spares _) ?_
    exact Run.respects_bind frame_spares (Run.respects_pathsOf frame_spares _
      (tolerates_spares (by decide))) fun _ => Run.respects_pure frame_spares _
  cases hr : resolveArguments setup.forest s.insights a with
  | error e => rw [approach, Run.bind_of_error (propagate_of_error hr g)]
  | ok arguments =>
    obtain ⟨es, hp⟩ := propagate_of_ok hr g
    rw [approach, Run.bind_of_ok hp]
    exact ((hrest _).callArgs? f).trans (callArgs?_put_eq s g f arguments)

theorem perform_callArgs {task : Task} (hc : task.callee? setup.forest = none) :
    Run.Respects SameCallArgs (task.perform setup) := by
  cases task with
  | enter f =>
    refine Run.respects_bind frame_spares (respects_begin frame_spares setup
      (tolerates_spares (by decide)) (tolerates_spares (by decide))) fun _ => ?_
    refine Run.respects_ite ?_ (Run.respects_pure frame_spares _)
    exact Run.respects_bind frame_spares (fun _ _ _ _ => rfl) fun _ => Run.respects_pure frame_spares _
  | leave =>
    exact Run.respects_bind frame_spares (fun _ _ _ _ => rfl) fun _ => Run.respects_pure frame_spares _
  | _ =>
    exact respects_perform frame_spares (fun _ _ hk => tolerates_spares hk) (fun _ h => by cases h)
      (fun h => by cases h) hc

theorem handed?_of_callee?_eq_none {s : State} {task : Task} {tasks : List Task}
    (hc : task.callee? setup.forest = none) :
    Moment.handed? setup ⟨s, none, task :: tasks⟩ = none := by
  cases task with
  | passes a ps =>
    cases ps with
    | nil => rfl
    | cons p ps => simp only [Moment.handed?, show p.callee? setup.forest a = none from hc]
  | _ => rfl

/-- One step changes the arguments of a function only by handing arguments on to it. -/
theorem step_callArgs (m : Moment) (f : Function) :
    (step setup m).state.insights.callArgs? f = match m.handed? setup with
      | some (g, arguments) => if g.id = f.id then some arguments else m.state.insights.callArgs? f
      | none => m.state.insights.callArgs? f := by
  obtain ⟨s, fault, tasks⟩ := m
  cases tasks with
  | nil => cases fault <;> rfl
  | cons task tasks =>
    cases fault with
    | some e => cases task <;> rfl
    | none =>
      have hstep : (step setup ⟨s, none, task :: tasks⟩).state = (task.perform setup s).2 := by
        simp only [step]
        rcases task.perform setup s with ⟨_ | _, t⟩ <;> rfl
      rw [hstep]
      cases hc : task.callee? setup.forest with
      | none =>
        rw [handed?_of_callee?_eq_none hc]
        exact (perform_callArgs hc s).callArgs? f
      | some g =>
        obtain ⟨a, p, ps, rfl, hp, hx⟩ := perform_of_callee? hc
        have hsame : (Task.perform setup (.passes a (p :: ps)) s).2 = (approach setup a g s).2 := by
          rw [hx, Run.bind_apply]
          rcases approach setup a g s with ⟨_ | _, t⟩ <;> rfl
        rw [hsame, approach_callArgs]
        simp only [Moment.handed?, hp]
        cases resolveArguments setup.forest s.insights a <;> rfl

/-- After any number of steps a function has the arguments handed on to it last. -/
theorem iterate_callArgs (m : Moment) (f : Function) (n : Nat) :
    ((step setup)^[n] m).state.insights.callArgs? f =
      (m.lastHanded? setup f n).or (m.state.insights.callArgs? f) := by
  induction n with
  | zero => rfl
  | succ n ih =>
    rw [Function.iterate_succ_apply', step_callArgs, Moment.lastHanded?]
    cases ((step setup)^[n] m).handed? setup with
    | none => exact ih
    | some h =>
      obtain ⟨g, arguments⟩ := h
      by_cases hg : g.id = f.id
      · simp [hg]
      · simpa [hg] using ih

/-- For the next `n` steps the tasks `rest` are not begun. -/
def Pending (setup : Setup) (m : Moment) (rest : List Task) (n : Nat) : Prop :=
  ∀ i ≤ n, rest <:+ ((step setup)^[i] m).tasks

def Task.Closing : Task → Prop
  | .settle _ _ => True
  | .leave => True
  | _ => False

theorem Task.Closing.perform {task : Task} (h : task.Closing) {s t : State} {next : List Task}
    (hp : task.perform setup s = (.ok next, t)) : next = [] := by
  cases leaves_of_perform hp with
  | settled call g => rfl
  | left => rfl
  | _ => cases h

theorem Task.Closing.callee?_eq_none {task : Task} (h : task.Closing) :
    task.callee? setup.forest = none := by
  cases task <;> first | rfl | cases h

/-- The tasks on top of `rest` visit only what lies below `f`. -/
def Confined (forest : Forest) (f : Function) (rest : List Task) (m : Moment) : Prop :=
  ∃ above, m.tasks = above ++ rest ∧ ∀ task ∈ above, task.Within (forest.Below f)

theorem step_confined {f : Function} {task : Task} (hc : task.Closing) {rest : List Task} {m : Moment}
    (hm : Confined setup.forest f (task :: rest) m) (hs : (task :: rest) <:+ (step setup m).tasks) :
    Confined setup.forest f (task :: rest) (step setup m) := by
  obtain ⟨s, fault, tasks⟩ := m
  obtain ⟨above, rfl, ha⟩ := hm
  cases above with
  | nil =>
    -- the closing task itself is performed, and then it is gone
    have hr : (step setup ⟨s, fault, task :: rest⟩).tasks = rest := by
      cases fault with
      | some e => rfl
      | none =>
        simp only [step]
        rcases hp : task.perform setup s with ⟨e | next, t⟩
        · rfl
        · rw [hc.perform hp]
          rfl
    rw [List.nil_append, hr] at hs
    exact absurd hs.length_le (Nat.not_succ_le_self _)
  | cons first above =>
    have hrest : ∀ task' ∈ above, task'.Within (setup.forest.Below f) :=
      fun task' ht => ha task' (List.mem_cons_of_mem first ht)
    cases fault with
    | some e => exact ⟨above, rfl, hrest⟩
    | none =>
      simp only [List.cons_append, step]
      rcases hp : first.perform setup s with ⟨e | next, t⟩
      · exact ⟨above, rfl, hrest⟩
      · refine ⟨next ++ above, (List.append_assoc _ _ _).symm, fun task' ht => ?_⟩
        obtain ht | ht := List.mem_append.mp ht
        · exact perform_within (fun _ h c => h.child) (fun _ _ h => h.target)
            (ha first List.mem_cons_self) hp task' ht
        · exact hrest task' ht

theorem iterate_confined {f : Function} {task : Task} (hc : task.Closing) {rest : List Task}
    {m : Moment} (hm : Confined setup.forest f (task :: rest) m) {n : Nat}
    (hp : Pending setup m (task :: rest) n) :
    ∀ i ≤ n, Confined setup.forest f (task :: rest) ((step setup)^[i] m) := by
  intro i hi
  induction i with
  | zero => exact hm
  | succ i ih =>
    have hs := hp (i + 1) hi
    rw [Function.iterate_succ_apply'] at hs ⊢
    exact step_confined hc (ih (by omega)) hs

theorem leads_of_handed? {f g : Function} {task : Task} (hc : task.Closing) {rest : List Task}
    {m : Moment} (hm : Confined setup.forest f (task :: rest) m) {arguments : List Artifact}
    (hg : m.handed? setup = some (g, arguments)) : TransGen setup.forest.Calls f g := by
  obtain ⟨s, fault, tasks⟩ := m
  obtain ⟨above, rfl, ha⟩ := hm
  cases fault with
  | some e => cases hg
  | none =>
    cases above with
    | nil =>
      rw [List.nil_append, handed?_of_callee?_eq_none hc.callee?_eq_none] at hg
      cases hg
    | cons first above =>
      cases hf : first.callee? setup.forest with
      | none =>
        rw [List.cons_append, handed?_of_callee?_eq_none hf] at hg
        cases hg
      | some g' =>
        obtain ⟨a, p, ps, rfl, hp, -⟩ := perform_of_callee? hf
        have hl := Forest.Below.leads (ha _ List.mem_cons_self) (target?_of_callee? hp)
        simp only [List.cons_append, Moment.handed?, hp] at hg
        cases hr : resolveArguments setup.forest s.insights a <;> rw [hr] at hg <;> cases hg
        exact hl

theorem lastHanded?_of_not_recursive (sound : setup.forest.Sound) {f : Function}
    (hf : setup.forest.Holds f.artifact) (hr : ¬setup.forest.Recursive f) {task : Task}
    (hc : task.Closing) {rest : List Task} {m : Moment}
    (hm : Confined setup.forest f (task :: rest) m) {n : Nat}
    (hp : Pending setup m (task :: rest) n) : m.lastHanded? setup f n = none := by
  have hi := iterate_confined hc hm hp
  clear hp
  induction n with
  | zero => rfl
  | succ n ih =>
    rw [Moment.lastHanded?]
    cases hh : ((step setup)^[n] m).handed? setup with
    | none => exact ih fun i hin => hi i (by omega)
    | some h =>
      obtain ⟨g, arguments⟩ := h
      have hl := leads_of_handed? hc (hi n (by omega)) hh
      have hg : g.id ≠ f.id := fun he => hr (by
        obtain ⟨k, -, call, -, ht⟩ := TransGen.tail'_iff.mp hl
        obtain rfl := Function.artifact_injective (hf.eq (sound.target ht) he.symm)
        exact hl)
      simp only [hg, if_false]
      exact ih fun i hin => hi i (by omega)

/-- The call is visited next, with these arguments, and `n` steps after that it is still to be given its
duration. -/
structure Visit (setup : Setup) (m : Moment) (call : Artifact) (g : Function)
    (arguments : List Artifact) (n : Nat) : Prop where
  fault : m.fault = none
  target : setup.forest.target? call = some g
  resolved : resolveArguments setup.forest m.state.insights call = .ok arguments
  pending : ∃ ps rest, m.tasks = .passes call (.callDuration :: ps) :: rest ∧
    Pending setup (step setup m) (.settle call g :: .passes call ps :: rest) n

/-- The function is entered next, and `n` steps after that it is still on the stack. -/
structure Activation (setup : Setup) (m : Moment) (f : Function) (n : Nat) : Prop where
  fault : m.fault = none
  pending : ∃ rest, m.tasks = .enter f :: rest ∧ Pending setup (step setup m) (.leave :: rest) n

theorem Pending.length_le {m : Moment} {rest : List Task} {n : Nat} (h : Pending setup m rest n) :
    rest.length ≤ m.tasks.length :=
  (h 0 (Nat.zero_le n)).length_le

theorem Visit.confined {m : Moment} {call : Artifact} {g : Function} {arguments : List Artifact}
    {n : Nat} (h : Visit setup m call g arguments n) :
    ∃ task rest, task.Closing ∧ Confined setup.forest g (task :: rest) (step setup m) ∧
      Pending setup (step setup m) (task :: rest) n := by
  obtain ⟨ps, rest, ht, hp⟩ := h.pending
  refine ⟨.settle call g, .passes call ps :: rest, trivial, ?_, hp⟩
  obtain ⟨s, fault, tasks⟩ := m
  obtain rfl : fault = none := h.fault
  obtain rfl : tasks = _ := ht
  have hc : Pass.callee? setup.forest call .callDuration = some g := h.target
  have hl := hp.length_le
  simp only [step, Task.perform, hc, Run.bind_apply] at hl ⊢
  rcases ha : approach setup call g s with ⟨e | _ | _, t⟩
  · rw [ha] at hl
    simp only [List.length_cons] at hl
    omega
  · exact ⟨[], rfl, List.forall_mem_nil _⟩
  · exact ⟨[.enter g], rfl, by simpa [Task.Within] using setup.forest.below_self g⟩

theorem Activation.confined {m : Moment} {f : Function} {n : Nat} (h : Activation setup m f n) :
    ∃ task rest, task.Closing ∧ Confined setup.forest f (task :: rest) (step setup m) ∧
      Pending setup (step setup m) (task :: rest) n := by
  obtain ⟨rest, ht, hp⟩ := h.pending
  refine ⟨.leave, rest, trivial, ?_, hp⟩
  obtain ⟨s, fault, tasks⟩ := m
  obtain rfl : fault = none := h.fault
  obtain rfl : tasks = _ := ht
  have hl := hp.length_le
  simp only [step, Task.perform, Run.bind_apply] at hl ⊢
  rcases hb : begin setup f s with ⟨e | _ | _, t⟩
  · rw [hb] at hl
    exact absurd hl (Nat.not_succ_le_self _)
  · rw [hb] at hl
    exact absurd hl (Nat.not_succ_le_self _)
  · exact ⟨[.nodes f.id [f.artifact], .paths f (setup.passes.filter (·.overPaths))], rfl,
      by simpa [Task.Within] using setup.forest.below_self f⟩

theorem Visit.handed? {m : Moment} {call : Artifact} {g : Function} {arguments : List Artifact}
    {n : Nat} (h : Visit setup m call g arguments n) : m.handed? setup = some (g, arguments) := by
  obtain ⟨ps, rest, ht, -⟩ := h.pending
  have hc : Pass.callee? setup.forest call .callDuration = some g := h.target
  simp only [Moment.handed?, h.fault, ht, hc, h.resolved]

theorem Activation.handed? {m : Moment} {f : Function} {n : Nat} (h : Activation setup m f n) :
    m.handed? setup = none := by
  obtain ⟨rest, ht, -⟩ := h.pending
  simp only [Moment.handed?, h.fault, ht]

/-- A call is estimated with the arguments of the latest visit of a call of the same function, and a
function under analysis has those it was entered with until a call of it is visited. Only for recursive
functions can that be another call. -/
theorem estimated_with_latest_arguments (setup : Setup) (sound : setup.forest.Sound) :
    (∀ m call g arguments n, Visit setup m call g arguments n →
      (((step setup)^[n + 1] m).state.insights.effectiveArgs g =
          ((step setup m).lastHanded? setup g n).getD arguments ∧
        (¬setup.forest.Recursive g →
          ((step setup)^[n + 1] m).state.insights.effectiveArgs g = arguments))) ∧
    ∀ m f n, setup.forest.Holds f.artifact → Activation setup m f n →
      (((step setup)^[n + 1] m).state.insights.callArgs? f =
          ((step setup m).lastHanded? setup f n).or (m.state.insights.callArgs? f) ∧
        (¬setup.forest.Recursive f →
          ((step setup)^[n + 1] m).state.insights.callArgs? f = m.state.insights.callArgs? f)) := by
  constructor
  · intro m call g arguments n hv
    have he : ((step setup)^[n + 1] m).state.insights.effectiveArgs g =
        ((step setup m).lastHanded? setup g n).getD arguments := by
      rw [Insights.effectiveArgs, Function.iterate_succ_apply, iterate_callArgs, step_callArgs,
        hv.handed?]
      cases (step setup m).lastHanded? setup g n <;> simp
    refine ⟨he, fun hr => ?_⟩
    obtain ⟨task, rest, hc, hm, hp⟩ := hv.confined
    rw [he, lastHanded?_of_not_recursive sound (sound.target hv.target) hr hc hm hp]
    rfl
  · intro m f n hf ha
    have he : ((step setup)^[n + 1] m).state.insights.callArgs? f =
        ((step setup m).lastHanded? setup f n).or (m.state.insights.callArgs? f) := by
      rw [Function.iterate_succ_apply, iterate_callArgs, step_callArgs, ha.handed?]
    refine ⟨he, fun hr => ?_⟩
    obtain ⟨task, rest, hc, hm, hp⟩ := ha.confined
    rw [he, lastHanded?_of_not_recursive sound hf hr hc hm hp]
    rfl

def setupOf (drafts : List Draft) : Setup where
  forest := (Session.start drafts {}).forest

theorem sound_setupOf (drafts : List Draft) : (setupOf drafts).forest.Sound :=
  (Session.sound_start drafts {}).1

def greeting : Setup := setupOf [
  .defining "say" [.reference none "x" (some 0)] [],
  .defining "greet" [] [.calling "say" [.literal none (.int 1)]]]

def said : Artifact := .literal ⟨3, none⟩ (.int 1)

def sayCall : Artifact := .call ⟨4, none⟩ (some "say") [said] (some "say")

def say : Function :=
  ⟨⟨2, none⟩, "say", "say", [.reference ⟨0, none⟩ "x" (some 0)], .block ⟨1, none⟩ []⟩

def visiting (call : Artifact) : Moment :=
  ⟨{ insights := {}, clock := .unbounded 0 }, none, [.passes call [.callDuration]]⟩

theorem not_recursive_say : ¬greeting.forest.Recursive say := by
  intro h
  obtain ⟨_, ⟨call, hc, ht⟩, -⟩ := TransGen.head'_iff.mp h
  have hw : say.artifact.walk =
      [say.artifact, .reference ⟨0, none⟩ "x" (some 0), .block ⟨1, none⟩ []] := by cbv
  rw [hw] at hc
  simp only [List.mem_cons, List.not_mem_nil, or_false] at hc
  obtain rfl | rfl | rfl := hc <;> cases ht

theorem pending_of_drop {m : Moment} {rest : List Task} {n : Nat}
    (h : ((List.range (n + 1)).map fun i => ((step setup)^[i] m).tasks.drop
      (((step setup)^[i] m).tasks.length - rest.length)) = List.replicate (n + 1) rest) :
    Pending setup m rest n := by
  intro i hi
  rw [List.eq_replicate_iff] at h
  rw [← h.2 _ (List.mem_map_of_mem (List.mem_range.mpr (Nat.lt_succ_of_le hi)))]
  exact List.drop_suffix _ _

theorem greeting_estimated_with_latest_arguments :
    ((step greeting)^[18] (visiting sayCall)).tasks = [.settle sayCall say, .passes sayCall []] ∧
    ((step greeting)^[18] (visiting sayCall)).state.insights.effectiveArgs say = [said] ∧
    ((step greeting)^[17] (visiting sayCall)).tasks.head? = some .leave ∧
    ((step greeting)^[17] (visiting sayCall)).state.insights.callArgs? say = some [said] := by
  have visit : Visit greeting (visiting sayCall) sayCall say [said] 17 :=
    ⟨rfl, by cbv, by cbv, [], [], rfl, pending_of_drop (by cbv)⟩
  have activation : Activation greeting (step greeting (visiting sayCall)) say 15 :=
    ⟨by cbv, [.settle sayCall say, .passes sayCall []], by cbv, pending_of_drop (by cbv)⟩
  have estimated := estimated_with_latest_arguments greeting (sound_setupOf _)
  have own := (estimated.1 _ _ _ _ _ visit).2 not_recursive_say
  have kept := (estimated.2 _ _ _ (by cbv) activation).2 not_recursive_say
  rw [← Function.iterate_succ_apply] at kept
  simp only [Nat.succ_eq_add_one, Nat.reduceAdd] at own kept
  have given : (step greeting (visiting sayCall)).state.insights.callArgs? say = some [said] := by cbv
  exact ⟨by cbv, own, by cbv, kept.trans given⟩

def countdown : Setup := setupOf [
  .defining "count" [.reference none "x" (some 0)] [.calling "count" [.literal none (.int 2)]],
  .defining "launch" [] [.calling "count" [.literal none (.int 1)]]]

def innerArgument : Artifact := .literal ⟨1, none⟩ (.int 2)

def outerArgument : Artifact := .literal ⟨5, none⟩ (.int 1)

def outerCall : Artifact := .call ⟨6, none⟩ (some "count") [outerArgument] (some "count")

def count : Function :=
  ⟨⟨4, none⟩, "count", "count", [.reference ⟨0, none⟩ "x" (some 0)],
    .block ⟨3, none⟩ [.call ⟨2, none⟩ (some "count") [innerArgument] (some "count")]⟩

theorem countdown_estimated_with_other_arguments :
    resolveArguments countdown.forest (visiting outerCall).state.insights outerCall =
        .ok [outerArgument] ∧
      ((step countdown)^[27] (visiting outerCall)).tasks =
        [.settle outerCall count, .passes outerCall []] ∧
      ((step countdown)^[27] (visiting outerCall)).state.insights.effectiveArgs count =
        [innerArgument] :=
  ⟨by cbv, by cbv, by cbv⟩

end CallTime.Analysis

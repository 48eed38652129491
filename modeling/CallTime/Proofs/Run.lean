import CallTime.Analysis.Analyze
import CallTime.Proofs.Walk

/-!
How the steps of a run change its state.

A relation between the state before and the state after is proved of a run by proving it of the steps
that change something: a write, a tick, an event, a push with its pop.
-/

namespace CallTime

namespace Insights

variable {s t : Insights} {i : NodeId} {f : Function}

theorem duration?_of_get? {e : Option (Entry Note)} (h : s.get? i .functionDuration = e) :
    s.duration? i = e.bind Entry.insight? :=
  congrArg (fun e => e.bind Entry.insight?) h

theorem durationSource?_of_get? {e : Option (Entry Note)} (h : s.get? i .durationSource = e) :
    s.durationSource? i = (e.bind Entry.note?).bind Note.value? :=
  congrArg (fun e => (e.bind Entry.note?).bind Note.value?) h

theorem duration?_congr (h : t.get? i .functionDuration = s.get? i .functionDuration) :
    t.duration? i = s.duration? i :=
  duration?_of_get? h

theorem durationSource?_congr (h : t.get? i .durationSource = s.get? i .durationSource) :
    t.durationSource? i = s.durationSource? i :=
  durationSource?_of_get? h

theorem recursive?_congr (h : t.get? i .recursiveCall = s.get? i .recursiveCall) :
    t.recursive? i = s.recursive? i :=
  congrArg (fun e => (e.bind Entry.note?).bind Note.value?) h

theorem callArgs?_congr (h : t.get? f.id .callArgs = s.get? f.id .callArgs) :
    t.callArgs? f = s.callArgs? f :=
  congrArg (fun e => (e.bind Entry.note?).bind Note.arguments?) h

theorem effectiveArgs_congr (h : t.get? f.id .callArgs = s.get? f.id .callArgs) :
    t.effectiveArgs f = s.effectiveArgs f := by
  rw [effectiveArgs, effectiveArgs, callArgs?_congr h]

theorem paths?_congr (h : t.get? f.id .paths = s.get? f.id .paths) : t.paths? f = s.paths? f :=
  congrArg (fun e => (e.bind Entry.note?).bind Note.paths?) h

theorem analyzedArgs?_congr (h : t.get? f.id .analyzedArgs = s.get? f.id .analyzedArgs) :
    t.analyzedArgs? f = s.analyzedArgs? f :=
  congrArg (fun e => (e.bind Entry.note?).bind Note.signature?) h

theorem get?_empty (i : NodeId) (k : Key) : ({} : Insights).get? i k = none := by
  rw [get?, data_empty]
  rfl

theorem callArgs?_empty (f : Function) : ({} : Insights).callArgs? f = none :=
  congrArg (fun e => (e.bind Entry.note?).bind Note.arguments?) (get?_empty f.id .callArgs)

end Insights

namespace Analysis.State

def put (s : State) (i : NodeId) (k : Key) (e : Entry Note) : State :=
  { s with insights := s.insights.write i ((s.insights.data i).set k e).1 }

def drop (s : State) (i : NodeId) (k : Key) : State :=
  { s with insights := s.insights.write i ((s.insights.data i).remove k) }

theorem get?_put_of_ne (s : State) {i j : NodeId} {k k' : Key} (h : i ≠ j ∨ k ≠ k')
    (e : Entry Note) : (s.put i k e).insights.get? j k' = s.insights.get? j k' := by
  rw [put, Insights.get?, Insights.data_write]
  split
  · next hi =>
    subst hi
    exact InsightData.get?_set_of_ne _ (h.resolve_left fun hn => hn rfl) e
  · rfl

theorem isSome_get?_put (s : State) (i : NodeId) (k : Key) (e : Entry Note) :
    ((s.put i k e).insights.get? i k).isSome := by
  rw [put, Insights.get?, Insights.data_write, if_pos rfl]
  exact InsightData.isSome_get?_set _ k e

theorem get?_put_note (s : State) (i : NodeId) (k : Key) (n : Note) :
    (s.put i k (.note n)).insights.get? i k = some (.note n) := by
  rw [put, Insights.get?, Insights.data_write, if_pos rfl, InsightData.get?_set_note]

theorem get?_put_insight (s : State) {i : NodeId} {k : Key}
    (h : ∀ e, (s.insights.data i).insight? k = some e → e.derived = true) (new : Insight) :
    (s.put i k (.insight new)).insights.get? i k = some (.insight new) := by
  rw [put, Insights.get?, Insights.data_write, if_pos rfl, InsightData.get?_set_insight _ h]

theorem get?_drop (s : State) (i j : NodeId) (k k' : Key) :
    (s.drop i k).insights.get? j k' =
      if i = j ∧ k = k' then none else s.insights.get? j k' := by
  rw [drop, Insights.get?, Insights.data_write]
  by_cases hi : i = j
  · subst hi
    simp [InsightData.get?_remove, Insights.get?]
  · simp [hi, Insights.get?]

theorem callArgs?_put (s : State) (f : Function) (arguments : List Artifact) :
    (s.put f.id .callArgs (.note (.arguments arguments))).insights.callArgs? f = some arguments :=
  congrArg (fun e => (e.bind Entry.note?).bind Note.arguments?) (s.get?_put_note _ _ _)

theorem paths?_put (s : State) (f : Function) (paths : List Path) :
    (s.put f.id .paths (.note (.paths paths))).insights.paths? f = some paths :=
  congrArg (fun e => (e.bind Entry.note?).bind Note.paths?) (s.get?_put_note _ _ _)

theorem analyzedArgs?_put (s : State) (f : Function) (σ : Signature) :
    (s.put f.id .analyzedArgs (.note (.signature σ))).insights.analyzedArgs? f = some σ :=
  congrArg (fun e => (e.bind Entry.note?).bind Note.signature?) (s.get?_put_note _ _ _)

end Analysis.State

namespace Run

open Analysis

variable {α β : Type}

theorem bind_apply (x : Run α) (f : α → Run β) (s : State) :
    (x >>= f) s = match x s with
      | (.ok a, t) => f a t
      | (.error e, t) => (.error e, t) := by
  change (ExceptT.bindCont f (x s).1 : StateM State _) (x s).2 = _
  rcases x s with ⟨_ | _, _⟩ <;> rfl

theorem bind_of_ok {x : Run α} {s t : State} {a : α} (h : x s = (.ok a, t)) (f : α → Run β) :
    (x >>= f) s = f a t := by
  rw [bind_apply, h]

theorem bind_of_error {x : Run α} {s t : State} {e : Fault} (h : x s = (.error e, t))
    (f : α → Run β) : (x >>= f) s = (.error e, t) := by
  rw [bind_apply, h]

theorem bind_eq_ok {x : Run α} {f : α → Run β} {s u : State} {b : β}
    (h : (x >>= f) s = (.ok b, u)) : ∃ a t, x s = (.ok a, t) ∧ f a t = (.ok b, u) := by
  rw [bind_apply] at h
  rcases hx : x s with ⟨e | a, t⟩ <;> rw [hx] at h
  · cases h
  · exact ⟨a, t, rfl, h⟩

theorem lift_apply (r : Except Fault α) (s : State) : (liftM r : Run α) s = (r, s) := rfl

theorem lift_of_ok {r : Except Fault α} {a : α} (h : r = .ok a) (s : State) :
    (liftM r : Run α) s = (.ok a, s) :=
  congrArg (·, s) h

theorem insights_apply (s : State) : insights s = (.ok s.insights, s) := rfl

theorem isActive_apply (f : Function) (s : State) :
    isActive f s = (.ok (s.stack.any (·.id = f.id)), s) := rfl

theorem record_apply (e : Event) (s : State) :
    record e s = (.ok (), { s with events := s.events.push e }) := rfl

theorem within_apply (f : Function) (body : Run Unit) (s : State) :
    within f body s = ((body { s with stack := f :: s.stack }).1,
      { (body { s with stack := f :: s.stack }).2 with
        stack := (body { s with stack := f :: s.stack }).2.stack.tail }) := rfl

theorem set_apply (i : NodeId) (k : Key) (e : Entry Note) (s : State) :
    ∃ es, set i k e s =
      (.ok ((s.insights.data i).set k e).2, { s.put i k e with events := es }) := by
  cases h : (s.insights.data i).refusal? k e with
  | none => exact ⟨s.events, by simp [set, bind_apply, insights_apply, h]; rfl⟩
  | some message =>
    exact ⟨s.events.push (.logged ⟨.debug, "sightline.insight.data", message⟩), by
      simp [set, bind_apply, insights_apply, h, log, record_apply]; rfl⟩

/-- Relations between states that do not look at what every step may change. -/
structure Frame (R : State → State → Prop) : Prop where
  refl : ∀ s, R s s
  trans : ∀ {s t u}, R s t → R t u → R s u
  events : ∀ s es, R s { s with events := es }
  clock : ∀ s c, R s { s with clock := c }
  within : ∀ {s t f}, R { s with stack := f :: s.stack } t → R s { t with stack := t.stack.tail }

/-- The relation allows writes of the key on the node. Only durations and their sources are ever taken
back. -/
structure Tolerates (R : State → State → Prop) (i : NodeId) (k : Key) : Prop where
  put : ∀ s e, R s (s.put i k e)
  drop : k = .functionDuration ∨ k = .durationSource → ∀ s, R s (s.drop i k)

def Respects (R : State → State → Prop) (x : Run α) : Prop := ∀ s, R s (x s).2

variable {R : State → State → Prop}

theorem respects_pure (F : Frame R) (a : α) : Respects R (pure a : Run α) := F.refl

theorem respects_lift (F : Frame R) (r : Except Fault α) : Respects R (liftM r : Run α) := F.refl

theorem respects_throw (F : Frame R) (e : Fault) : Respects R (throw e : Run α) := F.refl

theorem respects_get (F : Frame R) : Respects R (get : Run State) := F.refl

theorem respects_insights (F : Frame R) : Respects R insights := F.refl

theorem respects_isActive (F : Frame R) (f : Function) : Respects R (isActive f) := F.refl

theorem respects_record (F : Frame R) (e : Event) : Respects R (record e) :=
  fun s => F.events s (s.events.push e)

theorem respects_log (F : Frame R) (source message : String) : Respects R (log source message) :=
  respects_record F _

theorem respects_tick (F : Frame R) (n : Nat) : Respects R (tick n) :=
  fun s => F.clock s (s.clock.spend (.int n)).2

theorem respects_timed (F : Frame R) (x : Timed α) : Respects R (timed x) :=
  fun s => F.clock s (x s.clock).2

theorem respects_bind (F : Frame R) {x : Run α} {f : α → Run β} (hx : Respects R x)
    (hf : ∀ a, Respects R (f a)) : Respects R (x >>= f) := by
  intro s
  have h := hx s
  rw [bind_apply]
  rcases hr : x s with ⟨_ | a, t⟩ <;> rw [hr] at h
  · exact h
  · exact F.trans h (hf a t)

theorem respects_ite {c : Prop} [Decidable c] {x y : Run α} (hx : Respects R x)
    (hy : Respects R y) : Respects R (if c then x else y) := by
  split
  · exact hx
  · exact hy

theorem respects_set_of (F : Frame R) {i : NodeId} {k : Key} {e : Entry Note}
    (h : ∀ s, R s (s.put i k e)) : Respects R (set i k e) := by
  intro s
  obtain ⟨es, hs⟩ := set_apply i k e s
  rw [hs]
  exact F.trans (h s) (F.events _ es)

theorem respects_set (F : Frame R) {i : NodeId} {k : Key} (T : Tolerates R i k) (e : Entry Note) :
    Respects R (set i k e) :=
  respects_set_of F fun s => T.put s e

theorem respects_remove {i : NodeId} {k : Key} (T : Tolerates R i k)
    (hk : k = .functionDuration ∨ k = .durationSource) : Respects R (remove i k) :=
  T.drop hk

theorem respects_within (F : Frame R) (f : Function) {body : Run Unit} (h : Respects R body) :
    Respects R (within f body) :=
  fun _ => F.within (h _)

theorem respects_forM (F : Frame R) {f : α → Run Unit} {as : List α}
    (h : ∀ a ∈ as, Respects R (f a)) : Respects R (as.forM f) := by
  induction as with
  | nil => exact respects_pure F ()
  | cons a as ih =>
    refine respects_bind F (h a List.mem_cons_self) fun _ => ?_
    exact ih fun b hb => h b (List.mem_cons_of_mem a hb)

theorem respects_mapM (F : Frame R) {f : α → Run β} {as : List α}
    (h : ∀ a ∈ as, Respects R (f a)) : Respects R (as.mapM f) := by
  induction as with
  | nil => exact respects_pure F _
  | cons a as ih =>
    rw [List.mapM_cons]
    refine respects_bind F (h a List.mem_cons_self) fun _ => ?_
    refine respects_bind F (ih fun b hb => h b (List.mem_cons_of_mem a hb)) fun _ => ?_
    exact respects_pure F _

theorem respects_pathsOf (F : Frame R) (forest : Forest) {f : Function}
    (T : Tolerates R f.id .paths) : Respects R (pathsOf forest f) := by
  refine respects_bind F (respects_insights F) fun known => ?_
  split
  · exact respects_pure F _
  · refine respects_bind F (respects_timed F _) fun _ => ?_
    refine respects_bind F (respects_record F _) fun _ => ?_
    exact respects_bind F (respects_set F T _) fun _ => respects_pure F _

end Run

namespace Analysis

open Run

variable {R : State → State → Prop}

def recursiveMark : Entry Note := .note (.value (.bool true))

theorem respects_markRecursive_of (F : Frame R) (setup : Setup) {call : Artifact}
    (h : ∀ s : State, R s (s.put call.id .recursiveCall recursiveMark)) :
    Respects R (markRecursive setup call) := by
  refine respects_bind F (respects_insights F) fun _ => ?_
  refine respects_bind F (respects_lift F _) fun flagged => ?_
  refine respects_ite ?_ (respects_pure F _)
  refine respects_bind F (respects_log F _ _) fun _ => ?_
  exact respects_bind F (respects_set_of F h) fun _ => respects_pure F _

theorem respects_markRecursive (F : Frame R) (setup : Setup) {call : Artifact}
    (T : Tolerates R call.id .recursiveCall) : Respects R (markRecursive setup call) :=
  respects_markRecursive_of F setup fun s => T.put s recursiveMark

theorem respects_propagate (F : Frame R) (forest : Forest) (call : Artifact) {g : Function}
    (T : Tolerates R g.id .callArgs) : Respects R (propagate forest call g) := by
  refine respects_bind F (respects_insights F) fun _ => ?_
  refine respects_bind F (respects_lift F _) fun _ => ?_
  exact respects_bind F (respects_set F T _) fun _ => respects_pure F _

theorem propagate_of_error {forest : Forest} {call : Artifact} {s : State} {e : Fault}
    (h : resolveArguments forest s.insights call = .error e) (g : Function) :
    propagate forest call g s = (.error e, s) := by
  rw [propagate, bind_of_ok (insights_apply s), bind_of_error]
  rw [lift_apply, h]

theorem propagate_of_ok {forest : Forest} {call : Artifact} {s : State} {arguments : List Artifact}
    (h : resolveArguments forest s.insights call = .ok arguments) (g : Function) :
    ∃ es, propagate forest call g s =
      (.ok (), { s.put g.id .callArgs (.note (.arguments arguments)) with events := es }) := by
  obtain ⟨es, hs⟩ := set_apply g.id .callArgs (.note (.arguments arguments)) s
  refine ⟨es, ?_⟩
  rw [propagate, bind_of_ok (insights_apply s), bind_of_ok (lift_of_ok h s), bind_of_ok hs]
  rfl

theorem respects_shouldAnalyze (F : Frame R) (setup : Setup) (call : Artifact) (g : Function) :
    Respects R (shouldAnalyze setup call g) := by
  refine respects_ite (respects_pure F _) ?_
  refine respects_bind F (respects_insights F) fun _ => ?_
  refine respects_bind F (respects_lift F _) fun _ => ?_
  refine respects_ite (respects_pure F _) ?_
  refine respects_bind F (respects_isActive F g) fun _ => ?_
  refine respects_ite (respects_bind F (respects_log F _ _) fun _ => respects_pure F _) ?_
  refine respects_bind F (respects_insights F) fun known => ?_
  split
  · exact respects_pure F _
  · refine respects_ite (respects_pure F _) ?_
    refine respects_bind F (respects_lift F _) fun _ => ?_
    have hlog := respects_bind F (respects_log F callSource
      (g.qualified ++ " was analyzed for other arguments")) fun _ => respects_pure F true
    split
    · exact respects_ite (respects_pure F _) hlog
    · exact hlog

theorem respects_approach_of (F : Frame R) (setup : Setup) (call : Artifact) {g : Function}
    (A : Respects R (propagate setup.forest call g)) (P : Respects R (pathsOf setup.forest g)) :
    Respects R (approach setup call g) := by
  refine respects_bind F A fun _ => ?_
  refine respects_bind F (respects_shouldAnalyze F setup call g) fun _ => ?_
  exact respects_ite (respects_pure F _) (respects_bind F P fun _ => respects_pure F _)

theorem respects_approach (F : Frame R) (setup : Setup) (call : Artifact) {g : Function}
    (A : Tolerates R g.id .callArgs) (P : Tolerates R g.id .paths) :
    Respects R (approach setup call g) :=
  respects_approach_of F setup call (respects_propagate F _ call A) (respects_pathsOf F _ P)

theorem respects_estimate (F : Frame R) (forest : Forest) (call : Artifact) {g : Function}
    (P : Respects R (pathsOf forest g)) : Respects R (estimate forest call g) := by
  refine respects_bind F (respects_insights F) fun _ => ?_
  refine respects_ite ?_ (respects_bind F (respects_log F _ _) fun _ => respects_pure F _)
  refine respects_bind F P fun _ => ?_
  exact respects_bind F (respects_lift F _) fun _ => respects_lift F _

theorem respects_storeDuration (F : Frame R) {call : Artifact}
    (D : Tolerates R call.id .functionDuration) (S : Tolerates R call.id .durationSource)
    (duration : Int) (source : String) : Respects R (storeDuration call duration source) := by
  refine respects_bind F (respects_set F D _) fun _ => ?_
  refine respects_ite ?_ (respects_pure F _)
  exact respects_bind F (respects_set F S _) fun _ => respects_pure F _

theorem respects_dropDerived (F : Frame R) {call : Artifact}
    (D : Tolerates R call.id .functionDuration) (S : Tolerates R call.id .durationSource) :
    Respects R (dropDerived call) := by
  refine respects_bind F (respects_insights F) fun _ => ?_
  split
  · refine respects_ite ?_ (respects_pure F _)
    exact respects_bind F (respects_remove D (.inl rfl)) fun _ => respects_remove S (.inr rfl)
  · exact respects_pure F _

theorem respects_settle_of (F : Frame R) (setup : Setup) {call : Artifact} {g : Function}
    (P : Respects R (pathsOf setup.forest g))
    (S : ∀ duration source, Respects R (storeDuration call duration source))
    (D : Respects R (dropDerived call)) : Respects R (settle setup call g) := by
  refine respects_bind F (respects_estimate F _ call P) fun _ => ?_
  refine respects_bind F (respects_insights F) fun _ => ?_
  refine respects_bind F (respects_lift F _) fun _ => ?_
  split
  · exact S _ _
  · exact S _ _
  · exact D

theorem respects_settle (F : Frame R) (setup : Setup) {call : Artifact} {g : Function}
    (P : Tolerates R g.id .paths) (D : Tolerates R call.id .functionDuration)
    (S : Tolerates R call.id .durationSource) : Respects R (settle setup call g) :=
  respects_settle_of F setup (respects_pathsOf F _ P) (respects_storeDuration F D S)
    (respects_dropDerived F D S)

theorem respects_pathDurations (F : Frame R) {f : Function} (P : Tolerates R f.id .paths) :
    Respects R (pathDurations f) := by
  refine respects_bind F (respects_insights F) fun known => ?_
  refine respects_bind F (respects_mapM F fun _ _ => respects_lift F _) fun durations => ?_
  have hset : Respects R (if (known.paths? f).isSome then do
      let _ ← Run.set f.id .paths (.note (.paths
        (if durations.all List.isEmpty then ((known.paths? f).getD []).map forgetDerived
          else ((known.paths? f).getD []).zipWith addUp durations)))
      pure ()
    else pure () : Run Unit) :=
    respects_ite (respects_bind F (respects_set F P _) fun _ => respects_pure F _) (respects_pure F _)
  refine respects_ite ?_ hset
  exact respects_bind F (respects_forM F fun _ _ => respects_log F _ _) fun _ => hset

theorem respects_visitPaths_of (F : Frame R) {f : Function} (P : Respects R (pathDurations f))
    (p : Pass) : Respects R (visitPaths f p) := by
  cases p with
  | pathDuration => exact P
  | recursiveCall => exact respects_pure F _
  | callDuration => exact respects_pure F _
  | watch w =>
    cases w with
    | missing => exact respects_throw F _
    | paths =>
      refine respects_bind F (respects_insights F) fun _ => ?_
      exact respects_bind F (respects_bind F (respects_get F) fun _ => respects_pure F _)
        fun _ => respects_record F _
    | nothing => exact respects_pure F _
    | nodes => exact respects_pure F _
    | calls => exact respects_pure F _
    | kinds => exact respects_pure F _

theorem respects_visitPaths (F : Frame R) {f : Function} (P : Tolerates R f.id .paths) (p : Pass) :
    Respects R (visitPaths f p) :=
  respects_visitPaths_of F (respects_pathDurations F P) p

theorem respects_noteSignature (F : Frame R) {f : Function} (A : Tolerates R f.id .analyzedArgs) :
    Respects R (noteSignature f) := by
  refine respects_bind F (respects_insights F) fun _ => ?_
  refine respects_bind F (respects_lift F _) fun _ => ?_
  exact respects_bind F (respects_set F A _) fun _ => respects_pure F _

theorem respects_begin_of (F : Frame R) (setup : Setup) {f : Function}
    (P : Respects R (pathsOf setup.forest f)) (A : Respects R (noteSignature f)) :
    Respects R (begin setup f) := by
  refine respects_bind F (respects_record F _) fun _ => ?_
  refine respects_bind F (respects_isActive F f) fun _ => ?_
  refine respects_bind F P fun _ => ?_
  refine respects_ite (respects_pure F _) ?_
  refine respects_bind F (respects_log F _ _) fun _ => ?_
  exact respects_bind F A fun _ => respects_pure F _

theorem respects_begin (F : Frame R) (setup : Setup) {f : Function} (P : Tolerates R f.id .paths)
    (A : Tolerates R f.id .analyzedArgs) : Respects R (begin setup f) :=
  respects_begin_of F setup (respects_pathsOf F _ P) (respects_noteSignature F A)

def Pass.callee? (forest : Forest) (a : Artifact) : Pass → Option Function
  | .callDuration => forest.target? a
  | _ => none

variable {setup : Setup}

theorem visit_of_callee?_eq_none {a : Artifact} {p : Pass}
    (h : p.callee? setup.forest a = none) (enter enter' : Function → Run Unit) :
    visit setup enter a p = visit setup enter' a p := by
  cases p with
  | callDuration =>
    cases a with
    | call info name arguments target =>
      simp only [visit, callDuration]
      rw [show setup.forest.target? (.call info name arguments target) = none from h]
    | _ => rfl
  | watch w => cases w <;> rfl
  | _ => rfl

theorem visit_of_callee?_eq_some {a : Artifact} {p : Pass} {g : Function}
    (h : p.callee? setup.forest a = some g) (enter : Function → Run Unit) :
    visit setup enter a p = approach setup a g >>= fun b =>
      if b then enter g >>= fun _ => settle setup a g else settle setup a g := by
  cases p with
  | callDuration =>
    cases a with
    | call info name arguments target =>
      simp only [visit, callDuration]
      rw [show setup.forest.target? (.call info name arguments target) = some g from h]
    | _ => cases h
  | _ => cases h

theorem respects_visit_of_callee?_eq_none (F : Frame R) {a : Artifact} {p : Pass}
    (M : a.isCall = true → Respects R (markRecursive setup a))
    (h : p.callee? setup.forest a = none) (enter : Function → Run Unit) :
    Respects R (visit setup enter a p) := by
  cases p with
  | recursiveCall =>
    cases a with
    | call => exact M rfl
    | _ => exact respects_pure F _
  | callDuration =>
    cases a with
    | call info name arguments target =>
      simp only [visit, callDuration]
      rw [show setup.forest.target? (.call info name arguments target) = none from h]
      exact respects_log F _ _
    | _ => exact respects_pure F _
  | pathDuration => exact respects_pure F _
  | watch w =>
    cases w with
    | nodes => exact respects_bind F (respects_get F) fun _ => respects_record F _
    | calls =>
      cases a with
      | call =>
        exact respects_bind F (respects_bind F (respects_get F) fun _ => respects_pure F _)
          fun _ => respects_record F _
      | _ => exact respects_pure F _
    | kinds => cases a <;> exact respects_record F _
    | nothing => exact respects_pure F _
    | paths => exact respects_pure F _
    | missing => exact respects_pure F _

structure Allows (R : State → State → Prop) (setup : Setup) (a : Artifact) : Prop where
  mark : a.isCall = true → Respects R (markRecursive setup a)
  arguments : ∀ g, setup.forest.target? a = some g → Respects R (propagate setup.forest a g)
  paths : ∀ g, setup.forest.target? a = some g → Respects R (pathsOf setup.forest g)
  settle : ∀ g, setup.forest.target? a = some g → Respects R (settle setup a g)

theorem Allows.of_tolerates (F : Frame R) {a : Artifact} (M : Tolerates R a.id .recursiveCall)
    (D : Tolerates R a.id .functionDuration) (S : Tolerates R a.id .durationSource)
    (A : ∀ g, setup.forest.target? a = some g → Tolerates R g.id .callArgs)
    (P : ∀ g, setup.forest.target? a = some g → Tolerates R g.id .paths) : Allows R setup a where
  mark _ := respects_markRecursive F setup M
  arguments g hg := respects_propagate F _ a (A g hg)
  paths g hg := respects_pathsOf F _ (P g hg)
  settle g hg := respects_settle F setup (P g hg) D S

theorem Allows.of_all (F : Frame R) (W : ∀ i k, Tolerates R i k) (setup : Setup) (a : Artifact) :
    Allows R setup a :=
  .of_tolerates F (W _ _) (W _ _) (W _ _) (fun _ _ => W _ _) fun _ _ => W _ _

theorem target?_of_callee? {forest : Forest} {a : Artifact} {p : Pass} {g : Function}
    (h : p.callee? forest a = some g) : forest.target? a = some g := by
  cases p with
  | callDuration => exact h
  | _ => cases h

/-- With the analysis of called functions switched off, no call asks for one. -/
theorem approach_of_disabled (h : setup.settings.analyzeResolved = false) (call : Artifact)
    (g : Function) : approach setup call g = do
      propagate setup.forest call g
      let _ ← pathsOf setup.forest g
      return false := by
  have hs : shouldAnalyze setup call g = pure false := by simp [shouldAnalyze, h]
  simp [approach, hs]

theorem respects_visit (F : Frame R) {a : Artifact} (A : Allows R setup a)
    {enter : Function → Run Unit}
    (he : setup.settings.analyzeResolved = true → ∀ g, setup.forest.target? a = some g →
      Respects R (enter g)) (p : Pass) : Respects R (visit setup enter a p) := by
  cases h : p.callee? setup.forest a with
  | none => exact respects_visit_of_callee?_eq_none F A.mark h enter
  | some g =>
    have ht := target?_of_callee? h
    have hs := A.settle g ht
    rw [visit_of_callee?_eq_some h]
    by_cases hon : setup.settings.analyzeResolved = true
    · refine respects_bind F (respects_approach_of F setup a (A.arguments g ht) (A.paths g ht))
        fun _ => ?_
      exact respects_ite (respects_bind F (he hon g ht) fun _ => hs) hs
    · rw [approach_of_disabled (Bool.eq_false_iff.mpr hon), bind_assoc]
      refine respects_bind F (A.arguments g ht) fun _ => ?_
      rw [bind_assoc]
      exact respects_bind F (A.paths g ht) fun _ => hs

theorem artifact_of_nested? {root : NodeId} {a : Artifact} {g : Function}
    (h : nested? root a = some g) : g.artifact = a := by
  unfold nested? at h
  split at h
  · cases h
  · cases a <;> cases h
    rfl

/-- What a visit enters is one of the nodes, or it is called from one of them and called functions are
analysed. -/
theorem respects_visitFrom (F : Frame R) {enter : Function → Run Unit} (root : NodeId)
    (pending : List Artifact) (A : ∀ a ∈ Artifact.walkFrom pending, Allows R setup a)
    (he : ∀ a ∈ Artifact.walkFrom pending, ∀ g, g.artifact = a ∨
      setup.settings.analyzeResolved = true ∧ setup.forest.target? a = some g →
        Respects R (enter g)) :
    Respects R (visitFrom setup enter root pending) := by
  induction pending using visitFrom.induct root with
  | case1 =>
    rw [visitFrom]
    exact respects_pure F _
  | case2 a pending g hg ih =>
    rw [Artifact.walkFrom_cons] at A he
    have ha := List.mem_append_left (Artifact.walkFrom pending) a.mem_walk_self
    rw [visitFrom, hg]
    refine respects_bind F (he a ha g (.inl (artifact_of_nested? hg))) fun _ => ?_
    exact ih (fun b hb => A b (List.mem_append_right _ hb)) fun b hb =>
      he b (List.mem_append_right _ hb)
  | case3 a pending hg ih =>
    rw [Artifact.walkFrom] at A he
    rw [visitFrom, hg]
    refine respects_bind F (respects_tick F 1) fun _ => ?_
    refine respects_bind F (respects_forM F fun p _ => respects_visit F (A a List.mem_cons_self)
      (fun hon g hg => he a List.mem_cons_self g (.inr ⟨hon, hg⟩)) p) fun _ => ?_
    exact ih (fun b hb => A b (List.mem_cons_of_mem a hb)) fun b hb => he b (List.mem_cons_of_mem a hb)

/-- The relation allows what the analysis of a function does apart from visiting its nodes. -/
structure AllowsFunction (R : State → State → Prop) (setup : Setup) (f : Function) : Prop where
  paths : Respects R (pathsOf setup.forest f)
  signature : Respects R (noteSignature f)
  sums : Respects R (pathDurations f)

/-- The analysis of a function stays among the nodes below it and, where called functions are analysed,
those of the functions that calls among them lead to. -/
theorem respects_analyzeFunction_of (F : Frame R) {V : Artifact → Prop}
    (children : ∀ a, V a → ∀ c ∈ a.children, V c)
    (targets : setup.settings.analyzeResolved = true → ∀ a g, V a →
      setup.forest.target? a = some g → V g.artifact)
    (A : ∀ a, V a → Allows R setup a) (B : ∀ f, V f.artifact → AllowsFunction R setup f) (depth : Nat)
    {f : Function} (hf : V f.artifact) : Respects R (analyzeFunction setup depth f) := by
  induction depth generalizing f with
  | zero =>
    refine respects_bind F (respects_record F _) fun _ => ?_
    exact respects_bind F (B f hf).paths fun _ => respects_pure F _
  | succ depth ih =>
    have hV : ∀ a ∈ Artifact.walkFrom [f.artifact], V a :=
      Artifact.forall_mem_walkFrom children fun a ha => List.mem_singleton.mp ha ▸ hf
    refine respects_bind F (respects_begin_of F setup (B f hf).paths (B f hf).signature) fun _ => ?_
    refine respects_ite (respects_within F f ?_) (respects_pure F _)
    refine respects_bind F (respects_visitFrom F _ _ (fun a ha => A a (hV a ha)) fun a ha g hg => ?_)
      fun _ => respects_forM F fun p _ => respects_visitPaths_of F (B f hf).sums p
    obtain rfl | ⟨hon, hg⟩ := hg
    · exact ih (hV _ ha)
    · exact ih (targets hon a g (hV a ha) hg)

theorem respects_analyzeFunction (F : Frame R) (W : ∀ i k, Tolerates R i k) (setup : Setup)
    (depth : Nat) (f : Function) : Respects R (analyzeFunction setup depth f) :=
  respects_analyzeFunction_of (V := fun _ => True) F (fun _ _ _ _ => trivial)
    (fun _ _ _ _ _ => trivial) (fun a _ => .of_all F W setup a)
    (fun _ _ => ⟨respects_pathsOf F _ (W _ _), respects_noteSignature F (W _ _),
      respects_pathDurations F (W _ _)⟩) depth trivial

theorem frame_stack : Frame fun s t => t.stack = s.stack where
  refl _ := rfl
  trans h h' := h'.trans h
  events _ _ := rfl
  clock _ _ := rfl
  within h := by rw [h]; rfl

theorem tolerates_stack (i : NodeId) (k : Key) : Tolerates (fun s t => t.stack = s.stack) i k :=
  ⟨fun _ _ => rfl, fun _ _ => rfl⟩

theorem stack_analyzeFunction (setup : Setup) (depth : Nat) (f : Function) (s : State) :
    (analyzeFunction setup depth f s).2.stack = s.stack :=
  respects_analyzeFunction frame_stack tolerates_stack setup depth f s

def KeepsNoted (s t : State) : Prop :=
  ∀ i, (s.insights.get? i .analyzedArgs).isSome → (t.insights.get? i .analyzedArgs).isSome

theorem isSome_get?_of_analyzedArgs? {insights : Insights} {f : Function} {σ : Signature}
    (h : insights.analyzedArgs? f = some σ) : (insights.get? f.id .analyzedArgs).isSome := by
  cases he : insights.get? f.id .analyzedArgs with
  | some e => rfl
  | none =>
    have hn : insights.analyzedArgs? f = ((none : Option (Entry Note)).bind Entry.note?).bind
        Note.signature? :=
      congrArg (fun e => (e.bind Entry.note?).bind Note.signature?) he
    rw [h] at hn
    cases hn

theorem frame_noted : Frame KeepsNoted where
  refl _ _ h := h
  trans h h' i hi := h' i (h i hi)
  events _ _ _ h := h
  clock _ _ _ h := h
  within h := h

theorem tolerates_noted (i : NodeId) (k : Key) : Tolerates KeepsNoted i k where
  put s e j h := by
    by_cases hj : i = j ∧ k = .analyzedArgs
    · obtain ⟨rfl, rfl⟩ := hj
      exact s.isSome_get?_put i _ e
    · rw [s.get?_put_of_ne (Decidable.not_and_iff_or_not.mp hj) e]
      exact h
  drop hk s j h := by
    rw [s.get?_drop, if_neg]
    · exact h
    · rintro ⟨-, rfl⟩
      exact absurd hk (by decide)

def Spares (T : NodeId → Key → Prop) (s t : State) : Prop :=
  ∀ i k, ¬T i k → t.insights.get? i k = s.insights.get? i k

variable {T : NodeId → Key → Prop}

theorem frame_spares : Frame (Spares T) where
  refl _ _ _ _ := rfl
  trans h h' i k hT := (h' i k hT).trans (h i k hT)
  events _ _ _ _ _ := rfl
  clock _ _ _ _ _ := rfl
  within h := h

theorem tolerates_spares {i : NodeId} {k : Key} (h : T i k) : Tolerates (Spares T) i k where
  put s e j k' hT := by
    refine s.get?_put_of_ne ?_ e
    by_cases hi : i = j
    · exact .inr fun hk => hT (hi ▸ hk ▸ h)
    · exact .inl hi
  drop _ s j k' hT := by
    rw [s.get?_drop, if_neg]
    rintro ⟨rfl, rfl⟩
    exact hT h

end Analysis

end CallTime

import Mathlib
import CallTime.Proofs.Drafts
import CallTime.Proofs.Durations
import CallTime.Proofs.Measured

/-!
Path durations and call durations agree.

A call is given its duration only while the function that it belongs to is under analysis, and the pass
over the paths of that function comes after that. Main statement: at the end of an analysis that goes
through, the paths of every function that was under analysis carry the sums of what their calls carry.
-/

namespace CallTime

/-- A module of functions whose trees share no node and whose calls lead to functions in it, with
functions among the statements only: none is part of an expression. -/
structure Orchard (forest : Forest) (module : Artifact) : Prop where
  sound : forest.Sound
  held : forest.Holds module
  functions : ∃ info functions, module = moduleOf info functions
  unshared : (module.walk.map Artifact.id).Nodup
  targets : ∀ a ∈ module.walk, ∀ g, forest.target? a = some g → g.artifact ∈ module.walk
  placed : ∀ a ∈ module.walk, ∀ e ∈ a.expressions, ∀ b ∈ e.walk, b.isFunction = false

namespace Orchard

def Start (module a : Artifact) : Prop :=
  a = module ∨ ∃ f : Function, f.artifact = a ∧ a ∈ module.walk

variable {forest : Forest} {module a b : Artifact} {f g : Function}

theorem holds (h : Orchard forest module) (ha : a ∈ module.walk) : forest.Holds a :=
  Artifact.forall_mem_walkFrom h.sound.closed (fun _ hm => List.mem_singleton.mp hm ▸ h.held) a ha

theorem eq_of_id (h : Orchard forest module) (ha : a ∈ module.walk) (hb : b ∈ module.walk)
    (he : a.id = b.id) : a = b :=
  (h.holds ha).eq (h.holds hb) he

theorem function_eq_of_id (h : Orchard forest module) (hf : f.artifact ∈ module.walk)
    (hg : g.artifact ∈ module.walk) (he : f.id = g.id) : f = g :=
  Function.artifact_injective (h.eq_of_id hf hg he)

theorem nodup (h : Orchard forest module) : module.walk.Nodup := h.unshared.of_map _

theorem mem_of_owns (hf : f.artifact ∈ module.walk) (ha : f.Owns a) : a ∈ module.walk :=
  Artifact.mem_walkFrom_of_mem_walk hf ha.mem_walk

theorem not_owns_module (h : Orchard forest module) (hf : f.artifact ∈ module.walk) :
    ¬f.Owns module := fun ho =>
  ho.not_root h.nodup hf (List.mem_singleton_self _)

theorem holds_start (h : Orchard forest module) (ha : Start module a) : forest.Holds a := by
  obtain rfl | ⟨f, -, ha⟩ := ha
  · exact h.held
  · exact h.holds ha

theorem owns_of_enumerate (h : Orchard forest module) (hf : f.artifact ∈ module.walk) {c c' : Clock}
    {paths : List Path} (hp : Path.enumerate forest f c = (.ok paths, c')) :
    ∀ p ∈ paths, ∀ a ∈ p.artifacts.flatMap Artifact.walk, f.Owns a :=
  Path.owns_of_enumerate (fun a ha => h.placed a (Artifact.mem_walkFrom_of_mem_walk hf ha)) hp

end Orchard

namespace Insights

open Analysis

/-- The paths of the function carry the durations that their calls give: if some call on some path has
one, every path has the sum, unless it was measured; otherwise no path has a derived one. -/
structure Agrees (s : Insights) (f : Function) (ps : List Path) (ds : List (List Int)) : Prop where
  paths : s.paths? f = some ps
  known : ps.mapM (knownDurations s ·) = .ok ds
  bare : ds.all List.isEmpty = true →
    ∀ p ∈ ps, ∀ i, p.data.insight? .pathDuration = some i → i.derived = false
  sums : ds.all List.isEmpty = false → List.Forall₂ (fun p durations =>
    p.data.measured? .pathDuration = none →
      p.data.insight? .pathDuration = some ⟨.pathDuration, .int (durations.foldr (· + ·) 0), true⟩) ps ds

def Agreed (s : Insights) (f : Function) : Prop := ∃ ps ds, s.Agrees f ps ds

def Rooted (module : Artifact) (s : Insights) : Prop :=
  ∀ f : Function, f.artifact ∈ module.walk → ∀ ps, s.paths? f = some ps →
    ∀ p ∈ ps, ∀ a ∈ p.artifacts.flatMap Artifact.walk, f.Owns a

variable {s t : Insights} {module : Artifact} {f : Function}

theorem knownDurations_congr {p q : Path} (ha : q.artifacts = p.artifacts)
    (hd : ∀ a ∈ p.artifacts.flatMap Artifact.walk,
      t.get? a.id .functionDuration = s.get? a.id .functionDuration) :
    knownDurations t q = knownDurations s p := by
  rw [knownDurations_calls, knownDurations_calls, Path.calls, Path.calls, ha]
  congr 1
  apply List.filterMap_congr
  intro a hm
  exact duration?_congr (hd a (List.mem_of_mem_filter hm))

theorem Agreed.congr (h : s.Agreed f) (hs : s.Rooted module) (hf : f.artifact ∈ module.walk)
    (hp : t.get? f.id .paths = s.get? f.id .paths)
    (hd : ∀ a, f.Owns a → t.get? a.id .functionDuration = s.get? a.id .functionDuration) :
    t.Agreed f := by
  obtain ⟨ps, ds, h⟩ := h
  refine ⟨ps, ds, (paths?_congr hp).trans h.paths, ?_, h.bare, h.sums⟩
  rw [← h.known]
  apply mapM_congr
  intro p hpm
  exact knownDurations_congr rfl fun a ha => hd a (hs f hf ps h.paths p hpm a ha)

theorem Rooted.congr (h : s.Rooted module)
    (hp : ∀ f : Function, f.artifact ∈ module.walk → t.get? f.id .paths = s.get? f.id .paths) :
    t.Rooted module := by
  intro f hf ps hps
  rw [paths?_congr (hp f hf)] at hps
  exact h f hf ps hps

theorem Retains.owns (h : Retains s t) (hs : s.Rooted module) (hf : f.artifact ∈ module.walk)
    {ps qs : List Path} (hps : s.paths? f = some ps) (hqs : t.paths? f = some qs) :
    ∀ q ∈ qs, ∀ a ∈ q.artifacts.flatMap Artifact.walk, f.Owns a := by
  intro q hq a ha
  obtain ⟨qs', hqs', hk⟩ := h.paths f ps hps
  obtain rfl := Option.some.inj (hqs'.symm.trans hqs)
  obtain ⟨p, hp, he⟩ := List.mem_map.mp (hk ▸ List.mem_map_of_mem (f := Path.kept) hq)
  rw [← (Path.kept_eq_iff.mp he).2.2.1] at ha
  exact hs f hf ps hps p hp a ha

end Insights

namespace Analysis

open Run Insights

variable {setup : Setup} {module : Artifact} {f g : Function} {s : State}

theorem measured_of_forgetDerived {p : Path} {i : Insight}
    (h : (forgetDerived p).data.insight? .pathDuration = some i) : i.derived = false := by
  unfold forgetDerived at h
  cases hp : p.data.insight? .pathDuration with
  | none =>
    rw [hp] at h
    cases hp.symm.trans h
  | some j =>
    rw [hp] at h
    cases hd : j.derived with
    | true =>
      simp only [hd, if_true, InsightData.insight?, InsightData.get?_remove] at h
      cases h
    | false =>
      simp only [hd, Bool.false_eq_true, if_false] at h
      cases hp.symm.trans h
      exact hd

theorem sum_of_addUp {p : Path} {durations : List Int}
    (h : (addUp p durations).data.measured? .pathDuration = none) :
    (addUp p durations).data.insight? .pathDuration =
      some ⟨.pathDuration, .int (durations.foldr (· + ·) 0), true⟩ := by
  have hm : p.data.measured? .pathDuration = none :=
    (congrArg Prod.snd (kept_addUp p durations)).symm.trans h
  rw [InsightData.insight?, addUp, sumInsight,
    InsightData.get?_set_insight _ (InsightData.measured?_eq_none.mp hm)]
  rfl

theorem forall₂_addUp {ps : List Path} {ds : List (List Int)} (h : ps.length = ds.length) :
    List.Forall₂ (fun p durations => p.data.measured? .pathDuration = none →
      p.data.insight? .pathDuration = some ⟨.pathDuration, .int (durations.foldr (· + ·) 0), true⟩)
      (ps.zipWith addUp ds) ds := by
  induction ps generalizing ds with
  | nil =>
    obtain rfl := List.length_eq_zero_iff.mp h.symm
    exact .nil
  | cons p ps ih =>
    obtain _ | ⟨d, ds⟩ := ds
    · cases h
    · exact .cons sum_of_addUp (ih (Nat.succ.inj h))

theorem agreed_pathDurations {t : State} (hp : (s.insights.paths? f).isSome)
    (h : pathDurations f s = (.ok (), t)) : t.insights.Agreed f := by
  obtain ⟨hn, -⟩ | ⟨ps, hps, ⟨e, -, he⟩ | ⟨ds, es, hds, he⟩⟩ := pathDurations_cases f s
  · rw [hn] at hp
    cases hp
  · rw [he] at h
    cases h
  · rw [he] at h
    cases h
    have hlen := (forall₂_of_mapM hds).length_eq
    refine ⟨_, ds, s.paths?_put f _, ?_, fun hall p hpm => ?_, fun hall => ?_⟩
    · rw [← hds]
      apply mapM_forall₂
      refine (Path.forall₂_kept (map_kept_updated hlen).symm).imp fun q p hk => ?_
      refine knownDurations_congr (Path.kept_eq_iff.mp hk).2.2.1.symm fun a _ => ?_
      exact s.get?_put_of_ne (.inr (by decide)) _
    · rw [if_pos hall] at hpm
      obtain ⟨p, -, rfl⟩ := List.mem_map.mp hpm
      exact fun i => measured_of_forgetDerived
    · rw [if_neg (by simp [hall])]
      exact forall₂_addUp hlen

/-- Functions that agree with their calls go on doing so, apart from those that are open. -/
def Upholds (module : Artifact) (isOpen : Function → Prop) (s t : Insights) : Prop :=
  s.Rooted module → t.Rooted module ∧
    ∀ f : Function, f.artifact ∈ module.walk → ¬isOpen f → s.Agreed f → t.Agreed f

variable {isOpen : Function → Prop}

theorem frame_upholds : Frame (Between (Upholds module isOpen)) :=
  frame_between (fun _ h => ⟨h, fun _ _ _ ha => ha⟩) fun h h' hs =>
    ⟨(h' (h hs).1).1, fun f hf ho ha => (h' (h hs).1).2 f hf ho ((h hs).2 f hf ho ha)⟩

theorem upholds_of_get? {s t : Insights}
    (hp : ∀ f : Function, f.artifact ∈ module.walk → t.get? f.id .paths = s.get? f.id .paths)
    (hd : ∀ f : Function, f.artifact ∈ module.walk → ¬isOpen f → ∀ a, f.Owns a →
      t.get? a.id .functionDuration = s.get? a.id .functionDuration) : Upholds module isOpen s t :=
  fun hs => ⟨hs.congr hp, fun f hf ho ha => ha.congr hs hf (hp f hf) (hd f hf ho)⟩

theorem tolerates_upholds {i : NodeId} {k : Key} (hp : k ≠ .paths)
    (hd : k = .functionDuration → ∀ f : Function, f.artifact ∈ module.walk → ¬isOpen f → ∀ a, f.Owns a →
      i ≠ a.id) : Tolerates (Between (Upholds module isOpen)) i k := by
  have hkey (j : NodeId) (h : k = .functionDuration → i ≠ j) : i ≠ j ∨ k ≠ .functionDuration := by
    by_cases hk : k = .functionDuration
    · exact .inl (h hk)
    · exact .inr hk
  refine ⟨fun s e => ?_, fun _ s => ?_⟩
  · exact upholds_of_get? (fun f _ => s.get?_put_of_ne (.inr hp) e)
      fun f hf ho a ha => s.get?_put_of_ne (hkey _ fun hk => hd hk f hf ho a ha) e
  · refine upholds_of_get? (fun f _ => ?_) fun f hf ho a ha => ?_
    · rw [s.get?_drop, if_neg]
      exact fun h => hp h.2
    · rw [s.get?_drop, if_neg]
      rintro ⟨hi, hk⟩
      exact hd hk f hf ho a ha hi

theorem upholds_pathsOf (h : Orchard setup.forest module) (hg : g.artifact ∈ module.walk) :
    Respects (Between (Upholds module isOpen)) (pathsOf setup.forest g) := by
  intro s
  obtain ⟨ps, -, he⟩ | ⟨hn, ⟨e, c, -, he⟩ | ⟨ps, c, es, hps, he⟩⟩ := pathsOf_cases setup.forest g s <;>
    rw [he]
  · exact frame_upholds.refl s
  · exact frame_upholds.clock s c
  · have hother (f : Function) (hne : g.id ≠ f.id) :
        (s.put g.id .paths (.note (.paths ps))).insights.get? f.id .paths = s.insights.get? f.id .paths :=
      s.get?_put_of_ne (.inl hne) _
    refine fun hs => ⟨fun f hf qs hqs => ?_, fun f hf _ ha => ?_⟩
    · by_cases hid : g.id = f.id
      · obtain rfl := h.function_eq_of_id hg hf hid
        cases (s.paths?_put g ps).symm.trans hqs
        exact h.owns_of_enumerate hg hps
      · exact hs f hf qs ((paths?_congr (hother f hid)).symm.trans hqs)
    · have hid : g.id ≠ f.id := by
        intro hid
        obtain rfl := h.function_eq_of_id hg hf hid
        obtain ⟨qs, ds, ha⟩ := ha
        cases hn.symm.trans ha.paths
      exact ha.congr hs hf (hother f hid) fun a _ => s.get?_put_of_ne (.inr (by decide)) _

theorem upholds_pathDurations (h : Orchard setup.forest module) (hg : g.artifact ∈ module.walk) :
    Respects (Between (Upholds module isOpen)) (pathDurations g) := by
  intro s
  obtain ⟨-, he⟩ | ⟨ps, hps, ⟨e, -, he⟩ | ⟨ds, es, hds, he⟩⟩ := pathDurations_cases g s
  · rw [he]
    exact frame_upholds.refl s
  · rw [he]
    exact frame_upholds.refl s
  · have hnew := agreed_pathDurations (by rw [hps]; rfl) he
    have hr := retains_pathDurations g s
    rw [he] at hr ⊢
    have hother (f : Function) (hne : g.id ≠ f.id) (e : Entry Note) :
        (s.put g.id .paths e).insights.get? f.id .paths = s.insights.get? f.id .paths :=
      s.get?_put_of_ne (.inl hne) e
    refine fun hs => ⟨fun f hf qs hqs => ?_, fun f hf _ ha => ?_⟩
    · cases hf' : s.insights.paths? f with
      | none =>
        have hid : g.id ≠ f.id := by
          intro hid
          rw [← paths?_eq_of_id hid, hps] at hf'
          cases hf'
        cases hf'.symm.trans ((paths?_congr (hother f hid _)).symm.trans hqs)
      | some ps' => exact hr.owns hs hf hf' hqs
    · by_cases hid : g.id = f.id
      · obtain rfl := h.function_eq_of_id hg hf hid
        exact hnew
      · exact ha.congr hs hf (hother f hid _) fun a _ => s.get?_put_of_ne (.inr (by decide)) _

def Awaits (tasks : List Task) (f : Function) : Prop := .paths f [.pathDuration] ∈ tasks

/-- What the task is about lies in the module, and where it may come to give a call its duration, the
pass over the paths of the function around the call is among the tasks that follow. -/
def Task.Covered (module : Artifact) (rest : List Task) : Task → Prop
  | .enter f => f.artifact ∈ module.walk
  | .nodes root pending => (∀ a ∈ pending, a ∈ module.walk) ∧
    ∀ f : Function, f.artifact ∈ module.walk →
      f.id = root ∨ (∃ a ∈ pending, a.isFunction = false ∧ f.Owns a) → Awaits rest f
  | .passes a _ => a ∈ module.walk ∧
    ∀ f : Function, f.artifact ∈ module.walk → a.isFunction = false → f.Owns a → Awaits rest f
  | .settle call g => call ∈ module.walk ∧ g.artifact ∈ module.walk ∧
    ∀ f : Function, f.artifact ∈ module.walk → f.Owns call → Awaits rest f
  | .paths f _ => f.artifact ∈ module.walk
  | .leave => True

def Covered (module : Artifact) : List Task → Prop
  | [] => True
  | task :: rest => task.Covered module rest ∧ Covered module rest

theorem isFunction_of_target? {forest : Forest} {a : Artifact} (h : forest.target? a = some g) :
    a.isFunction = false := by
  cases a with
  | function => cases h
  | _ => rfl

theorem owner_of_child (h : Orchard setup.forest module) (hf : f.artifact ∈ module.walk) {a c : Artifact}
    (ha : a ∈ module.walk) (hc : c ∈ a.children) (ho : f.Owns c) {root : NodeId}
    (hn : nested? root a = none) {pending : List Artifact} :
    f.id = root ∨ ∃ b ∈ a :: pending, b.isFunction = false ∧ f.Owns b := by
  have hp := Function.Owns.parent h.nodup hf ha hc ho
  cases hfun : a.isFunction with
  | false =>
    rw [hfun] at hp
    exact .inr ⟨a, List.mem_cons_self, hfun, hp⟩
  | true =>
    rw [hfun] at hp
    obtain rfl : f.artifact = a := hp
    left
    by_contra hne
    rw [nested?, if_neg (show f.artifact.id ≠ root from hne)] at hn
    cases hn

theorem covered_settle (h : Orchard setup.forest module) {a : Artifact} {p : Pass} {ps : List Pass}
    {rest : List Task} (hc : p.callee? setup.forest a = some g)
    (ht : Task.Covered module rest (.passes a (p :: ps))) :
    Task.Covered module (.passes a ps :: rest) (.settle a g) :=
  have hg := target?_of_callee? hc
  ⟨ht.1, h.targets a ht.1 g hg, fun f hf ho =>
    List.mem_cons_of_mem _ (ht.2 f hf (isFunction_of_target? hg) ho)⟩

theorem covered_of_leaves (h : Orchard setup.forest module) (hpasses : setup.passes = defaultPasses)
    {task : Task} {rest next : List Task} (hl : task.Leaves setup next)
    (ht : task.Covered module rest) (hrest : Covered module rest) : Covered module (next ++ rest) := by
  cases hl with
  | entered f =>
    have hf : f.artifact ∈ module.walk := ht
    refine ⟨⟨?_, ?_⟩, hf, trivial, hrest⟩
    · exact fun a ha => List.mem_singleton.mp ha ▸ hf
    · rintro g hg (hid | ⟨a, ha, hn, -⟩)
      · obtain rfl := h.function_eq_of_id hg hf hid
        rw [hpasses]
        exact List.mem_cons_self
      · rw [List.mem_singleton.mp ha] at hn
        cases hn
  | @nested root a pending g hg =>
    have hg' : g.artifact ∈ module.walk := artifact_of_nested? hg ▸ ht.1 a List.mem_cons_self
    refine ⟨hg', ⟨fun b hb => ht.1 b (List.mem_cons_of_mem a hb), fun f hf hw => ht.2 f hf ?_⟩, hrest⟩
    obtain hid | ⟨b, hb, hw⟩ := hw
    · exact .inl hid
    · exact .inr ⟨b, List.mem_cons_of_mem a hb, hw⟩
  | @node root a pending hg =>
    have ha : a ∈ module.walk := ht.1 a List.mem_cons_self
    refine ⟨⟨ha, fun f hf hn ho => ?_⟩, ⟨fun b hb => ?_, fun f hf hw => ht.2 f hf ?_⟩, hrest⟩
    · exact List.mem_cons_of_mem _ (ht.2 f hf (.inr ⟨a, List.mem_cons_self, hn, ho⟩))
    · obtain hb | hb := List.mem_append.mp hb
      · exact Artifact.mem_walk_children ha hb
      · exact ht.1 b (List.mem_cons_of_mem a hb)
    · obtain hid | ⟨c, hc, hn, ho⟩ := hw
      · exact .inl hid
      · obtain hc | hc := List.mem_append.mp hc
        · exact owner_of_child h hf ha hc ho hg
        · exact .inr ⟨c, List.mem_cons_of_mem a hc, hn, ho⟩
  | @known a p ps g hc => exact ⟨covered_settle h hc ht, ht, hrest⟩
  | @called a p ps g hc =>
    exact ⟨h.targets a ht.1 g (target?_of_callee? hc), covered_settle h hc ht, ht, hrest⟩
  | silent => exact ⟨ht, hrest⟩
  | adding => exact ⟨ht, hrest⟩
  | _ => exact hrest

theorem tolerates_settled (h : Orchard setup.forest module) {call : Artifact} {g : Function}
    {rest : List Task} (ht : Task.Covered module rest (.settle call g)) (k : Key) (hk : k ≠ .paths) :
    Tolerates (Between (Upholds module (Awaits rest))) call.id k := by
  refine tolerates_upholds hk fun _ f hf ho a ha hid => ho (ht.2.2 f hf ?_)
  exact h.eq_of_id ht.1 (Orchard.mem_of_owns hf ha) hid ▸ ha

theorem writes_upholds (h : Orchard setup.forest module) {task : Task} {rest : List Task}
    (ht : task.Covered module rest) : task.Writes (Upholds module (Awaits rest)) setup where
  paths g hg := by
    refine upholds_pathsOf h ?_
    cases task with
    | enter f =>
      obtain rfl : f = g := hg
      exact ht
    | passes a ps => exact h.targets a ht.1 g hg
    | settle call f =>
      obtain rfl : f = g := hg
      exact ht.2.1
    | nodes => cases hg
    | paths => cases hg
    | leave => cases hg
  store call g hs := by
    subst hs
    exact respects_storeDuration frame_upholds (tolerates_settled h ht _ (by decide))
      (tolerates_settled h ht _ (by decide))
  drop call g hs := by
    subst hs
    exact respects_dropDerived frame_upholds (tolerates_settled h ht _ (by decide))
      (tolerates_settled h ht _ (by decide))
  sums f ps hs := by
    subst hs
    exact upholds_pathDurations h ht

theorem paths?_of_pathsOf {forest : Forest} {t : State} {ps : List Path}
    (h : pathsOf forest f s = (.ok ps, t)) : t.insights.paths? f = some ps := by
  obtain ⟨qs, hq, he⟩ | ⟨-, ⟨e, c, -, he⟩ | ⟨qs, c, es, -, he⟩⟩ := pathsOf_cases forest f s
  · cases he.symm.trans h
    exact hq
  · cases he.symm.trans h
  · cases he.symm.trans h
    exact s.paths?_put f ps

theorem isSome_of_retains {s t : Insights} (h : Retains s t) (hs : (s.paths? f).isSome) :
    (t.paths? f).isSome := by
  obtain ⟨ps, hps⟩ := Option.isSome_iff_exists.mp hs
  obtain ⟨qs, hqs, -⟩ := h.paths f ps hps
  rw [hqs]
  rfl

theorem isSome_paths?_of_begin {t : State} {b : Bool} (h : begin setup f s = (.ok b, t)) :
    (t.insights.paths? f).isSome := by
  rw [begin, bind_of_ok (record_apply _ s), bind_of_ok (isActive_apply f _)] at h
  obtain ⟨ps, u, hu, h⟩ := bind_eq_ok h
  have hpaths := paths?_of_pathsOf hu
  have hrest : Respects (Between Retains) (if List.any s.stack (·.id = f.id) then pure false else do
      Run.log "sightline.insight.analyzer" ("analyzing " ++ f.qualified)
      noteSignature f
      return true : Run Bool) := by
    refine respects_ite (respects_pure frame_retains _) ?_
    refine respects_bind frame_retains (respects_log frame_retains _ _) fun _ => ?_
    refine respects_bind frame_retains ?_ fun _ => respects_pure frame_retains _
    exact respects_noteSignature frame_retains (tolerates_retains (by decide) _)
  have hr := hrest u
  rw [show _ = (Except.ok b, t) from h] at hr
  exact isSome_of_retains hr (by rw [hpaths]; rfl)

/-- What holds at every moment of a run, of the functions that have been under analysis so far. -/
structure Moment.Agreeing (module : Artifact) (entered : Function → Prop) (m : Moment) : Prop where
  covered : Covered module m.tasks
  rooted : m.state.insights.Rooted module
  noted : ∀ f ps, .paths f ps ∈ m.tasks → (m.state.insights.paths? f).isSome
  agreed : ∀ f : Function, entered f →
    f.artifact ∈ module.walk ∧ (Awaits m.tasks f ∨ m.state.insights.Agreed f)

theorem entered_perform (hpasses : setup.passes = defaultPasses) {task : Task} {t : State}
    {next : List Task} (hp : task.perform setup s = (.ok next, t)) (hf : f ∈ t.stack) :
    f ∈ s.stack ∨ task = .enter f ∧ Awaits next f := by
  by_cases he : ∃ g, task = .enter g
  · obtain ⟨g, rfl⟩ := he
    have hb := respects_begin frame_stack setup (tolerates_stack g.id _) (tolerates_stack _ _) s
    obtain ⟨b, u, hu, hp⟩ := bind_eq_ok hp
    rw [hu] at hb
    cases b with
    | false =>
      cases hp
      exact .inl (hb ▸ hf)
    | true =>
      cases hp
      obtain rfl | hf := List.mem_cons.mp hf
      · refine .inr ⟨rfl, ?_⟩
        rw [hpasses]
        exact List.mem_cons_of_mem _ List.mem_cons_self
      · exact .inl (hb ▸ hf)
  · left
    by_cases hl : task = .leave
    · subst hl
      cases hp
      exact List.mem_of_mem_tail hf
    · have hs : (task.perform setup s).2.stack = s.stack := perform_stack (fun g hg => he ⟨g, hg⟩) hl s
      rw [hp] at hs
      exact hs ▸ hf

theorem noted_perform {task : Task} {t : State} {next : List Task}
    (hnoted : ∀ f ps, task = .paths f ps → (t.insights.paths? f).isSome)
    (hp : task.perform setup s = (.ok next, t)) {ps : List Pass} (hf : .paths f ps ∈ next) :
    (t.insights.paths? f).isSome := by
  cases hl : leaves_of_perform hp with
  | entered g =>
    obtain ⟨b, u, hu, hp⟩ := bind_eq_ok hp
    have hg := isSome_paths?_of_begin hu
    cases b <;> cases hp
    obtain ⟨rfl, -⟩ : f = g ∧ _ := by simpa using hf
    exact hg
  | adding g p qs =>
    cases List.mem_singleton.mp hf
    exact hnoted f _ rfl
  | _ => simp at hf

theorem agreed_perform {t : State} {next : List Task} (hnoted : (s.insights.paths? f).isSome)
    (hp : Task.perform setup (.paths f [.pathDuration]) s = (.ok next, t)) : t.insights.Agreed f := by
  obtain ⟨_, u, hu, hp⟩ := bind_eq_ok hp
  cases hp
  exact agreed_pathDurations hnoted hu

theorem step_agreeing (h : Orchard setup.forest module) (hpasses : setup.passes = defaultPasses)
    {entered : Function → Prop} {m : Moment} (hm : m.Agreeing module entered)
    (hstack : ∀ f ∈ m.state.stack, entered f) (hfault : (step setup m).fault = none) :
    (step setup m).Agreeing module fun f => entered f ∨ f ∈ (step setup m).state.stack := by
  obtain ⟨s, fault, tasks⟩ := m
  cases tasks with
  | nil => exact ⟨hm.covered, hm.rooted, hm.noted, fun f hf => hm.agreed f (hf.elim id (hstack f))⟩
  | cons task rest =>
    obtain rfl : fault = none := by
      cases fault with
      | none => rfl
      | some e => cases hfault
    have hr := step_retains setup ⟨s, none, task :: rest⟩
    have hu := @step_between (Upholds module (Awaits rest)) frame_upholds
      (fun i k hk => tolerates_upholds ?_ ?_) setup ⟨s, none, task :: rest⟩
      (by rintro _ _ ⟨⟩ -; exact writes_upholds h hm.covered.1)
    · simp only [step] at hr hu hfault ⊢
      rcases hp : task.perform setup s with ⟨e | next, t⟩ <;> rw [hp] at hr hu hfault
      · cases hfault
      obtain ⟨hrooted, hupheld⟩ := hu hm.rooted
      have onward (f : Function) (hf : entered f) :
          f.artifact ∈ module.walk ∧ (Awaits (next ++ rest) f ∨ t.insights.Agreed f) := by
        obtain ⟨hmem, hf⟩ := hm.agreed f hf
        refine ⟨hmem, ?_⟩
        by_cases hrest : Awaits rest f
        · exact .inl (List.mem_append_right _ hrest)
        · right
          obtain hf | hf := hf
          · obtain rfl | hf := List.mem_cons.mp hf
            · exact agreed_perform (hm.noted f _ List.mem_cons_self) hp
            · exact absurd hf hrest
          · exact hupheld f hmem hrest hf
      refine ⟨covered_of_leaves h hpasses (leaves_of_perform hp) hm.covered.1 hm.covered.2, hrooted,
        fun f ps hf => ?_, fun f hf => ?_⟩
      · obtain hf | hf := List.mem_append.mp hf
        · refine noted_perform (fun f ps he => isSome_of_retains hr (hm.noted f ps ?_)) hp hf
          exact he ▸ List.mem_cons_self
        · exact isSome_of_retains hr (hm.noted f ps (List.mem_cons_of_mem _ hf))
      · obtain hf | hf := hf
        · exact onward f hf
        · obtain hf | ⟨rfl, hf⟩ := entered_perform hpasses hp hf
          · exact onward f (hstack f hf)
          · exact ⟨hm.covered.1, .inl (List.mem_append_left _ hf)⟩
    · obtain rfl | rfl | rfl := hk <;> decide
    · obtain rfl | rfl | rfl := hk <;> exact fun h => absurd h (by decide)

theorem fault_of_step {m : Moment} (h : (step setup m).fault = none) : m.fault = none := by
  obtain ⟨s, fault, tasks⟩ := m
  cases fault with
  | none => rfl
  | some e => cases tasks <;> cases h

theorem covered_first (h : Orchard setup.forest module) {a : Artifact} (ha : Orchard.Start module a)
    (insights : Insights) (clock : Clock) : Covered module (Moment.first insights clock a).tasks := by
  obtain rfl | ⟨f, rfl, hf⟩ := ha
  · obtain ⟨info, functions, rfl⟩ := h.functions
    refine ⟨⟨fun b hb => List.mem_singleton.mp hb ▸ Artifact.mem_walk_self _, ?_⟩, trivial⟩
    rintro f hf (hid | ⟨b, hb, -, ho⟩)
    · cases h.eq_of_id hf (Artifact.mem_walk_self _) hid
    · rw [List.mem_singleton.mp hb] at ho
      exact absurd ho (h.not_owns_module hf)
  · exact ⟨hf, trivial⟩

theorem moment_agreeing (h : Orchard setup.forest module) (hpasses : setup.passes = defaultPasses)
    {insights : Insights} (hrooted : insights.Rooted module) {clock : Clock} {a : Artifact}
    (ha : Orchard.Start module a) (n : Nat) (hfault : (moment setup insights clock a n).fault = none) :
    (moment setup insights clock a n).Agreeing module fun f =>
      ∃ k ≤ n, f ∈ (moment setup insights clock a k).state.stack := by
  induction n with
  | zero =>
    refine ⟨covered_first h ha insights clock, hrooted, fun f ps hf => ?_, ?_⟩
    · cases hfun : Function.ofArtifact? a <;> simp [moment, Moment.first, hfun] at hf
    · rintro f ⟨k, hk, hf⟩
      obtain rfl := Nat.le_zero.mp hk
      cases hf
  | succ n ih =>
    rw [moment_succ] at hfault
    have hm := step_agreeing h hpasses (ih (fault_of_step hfault)) (fun f hf => ⟨n, le_rfl, hf⟩) hfault
    rw [← moment_succ] at hm
    refine ⟨hm.covered, hm.rooted, hm.noted, fun f hf => hm.agreed f ?_⟩
    obtain ⟨k, hk, hf⟩ := hf
    obtain hk | rfl := Nat.le_succ_iff.mp hk
    · exact .inl ⟨k, hk, hf⟩
    · exact .inr hf

def Entered (setup : Setup) (insights : Insights) (a : Artifact) (f : Function) : Prop :=
  ∃ clock n, Clock.forLimit setup.settings.maxTicks = .ok clock ∧
    f ∈ (moment setup insights clock a n).state.stack

theorem analyze_agreed (h : Orchard setup.forest module) (hpasses : setup.passes = defaultPasses)
    {insights : Insights} (hrooted : insights.Rooted module) {a : Artifact} (ha : Orchard.Start module a)
    (complete : (analyze setup insights a).result.isOk = true) (hf : Entered setup insights a f) :
    (analyze setup insights a).insights.Agreed f := by
  obtain ⟨clock, k, hc, hf⟩ := hf
  obtain ⟨n, hn, he⟩ := exists_moment_eq_analyze h.sound insights (h.holds_start ha) hc
  rw [← he] at complete ⊢
  have hfault : (moment setup insights clock a n).fault = none := by
    cases hfault : (moment setup insights clock a n).fault with
    | none => rfl
    | some e =>
      rw [Moment.outcome, hfault] at complete
      cases complete
  have hm := moment_agreeing h hpasses hrooted ha n hfault
  obtain ⟨-, hw | hag⟩ := hm.agreed f (by
    obtain hk | hk := Nat.le_total k n
    · exact ⟨k, hk, hf⟩
    · exact ⟨n, le_rfl, moment_of_le hn hk ▸ hf⟩)
  · rw [hn] at hw
    cases hw
  · exact hag

def measuredAt? (s : Insights) (f : Function) (j : Nat) : Option Insight :=
  ((s.paths? f).bind (·[j]?)).bind (·.data.measured? .pathDuration)

theorem measured?_of_retains {s t : Insights} (h : Retains s t) {qs : List Path}
    (hqs : t.paths? f = some qs) {j : Nat} {q : Path} (hq : qs[j]? = some q) :
    q.data.measured? .pathDuration = measuredAt? s f j := by
  unfold measuredAt?
  cases hs : s.paths? f with
  | none => exact h.fresh f hs qs hqs q (List.mem_of_getElem? hq)
  | some ps =>
    obtain ⟨qs', hqs', hk⟩ := h.paths f ps hs
    obtain rfl := Option.some.inj (hqs'.symm.trans hqs)
    have hj := congrArg (·[j]?) hk
    simp only [List.getElem?_map, hq, Option.map_some] at hj
    obtain ⟨p, hp, he⟩ := Option.map_eq_some_iff.mp hj.symm
    simp only [Option.bind_some, hp]
    exact (congrArg Prod.snd he).symm

def callDurations (s : Insights) (p : Path) : List Insight :=
  p.calls.filterMap fun call => s.duration? call.id

/-- The paths of the function are there. If some call on some of them carries a duration, every path
carries a duration: the measured one that it had before, or else the derived sum over its calls. If no
call does, no path carries a derived duration. -/
def SumsUp (before after : Insights) (f : Function) : Prop :=
  ∃ paths, after.paths? f = some paths ∧
    ((∃ p ∈ paths, callDurations after p ≠ []) ∧
        (∀ j p, paths[j]? = some p → ∃ ns : List Int,
          List.Forall₂ (fun i n => i.value.toInt = .ok n) (callDurations after p) ns ∧
          p.data.insight? .pathDuration = some ((measuredAt? before f j).getD
            ⟨.pathDuration, .int (ns.foldr (· + ·) 0), true⟩)) ∨
      (∀ p ∈ paths, callDurations after p = []) ∧
        ∀ p ∈ paths, ∀ i, p.data.insight? .pathDuration = some i → i.derived = false)

section Agrees

variable {before after : Insights} {ps : List Path} {ds : List (List Int)}

theorem forall₂_callDurations (h : after.Agrees f ps ds) :
    List.Forall₂ (fun p ns => List.Forall₂ (fun i n => i.value.toInt = .ok n) (callDurations after p) ns)
      ps ds := by
  refine (forall₂_of_mapM h.known).imp fun p ns hp => forall₂_of_mapM ?_
  rwa [knownDurations_calls] at hp

theorem callDurations_eq_nil_iff (h : after.Agrees f ps ds) :
    (∀ p ∈ ps, callDurations after p = []) ↔ ds.all List.isEmpty = true := by
  have hknown := forall₂_callDurations h
  clear h
  induction hknown with
  | nil => simp
  | cons hp _ ih =>
    rw [List.forall_mem_cons, List.all_cons, Bool.and_eq_true, List.isEmpty_iff]
    refine and_congr ?_ ih
    rw [← List.length_eq_zero_iff, hp.length_eq, List.length_eq_zero_iff]

theorem sumsUp_of_agreed (hr : Retains before after) (h : after.Agreed f) : SumsUp before after f := by
  obtain ⟨ps, ds, h⟩ := h
  refine ⟨ps, h.paths, ?_⟩
  cases hall : ds.all List.isEmpty with
  | true => exact .inr ⟨(callDurations_eq_nil_iff h).mpr hall, h.bare hall⟩
  | false =>
    refine .inl ⟨?_, fun j p hj => ?_⟩
    · by_contra hn
      push Not at hn
      rw [(callDurations_eq_nil_iff h).mp hn] at hall
      cases hall
    · obtain ⟨hlt, rfl⟩ := List.getElem?_eq_some_iff.mp hj
      have hknown := forall₂_callDurations h
      have hlt' : j < ds.length := hknown.length_eq ▸ hlt
      refine ⟨ds.get ⟨j, hlt'⟩, hknown.get hlt hlt', ?_⟩
      rw [← measured?_of_retains hr h.paths hj]
      cases hmeasured : ps[j].data.measured? .pathDuration with
      | some m => exact (InsightData.measured?_eq_some.mp hmeasured).1
      | none => exact (h.sums hall).get hlt hlt' hmeasured

end Agrees

def Enumerated (forest : Forest) (module : Artifact) (s : Insights) : Prop :=
  ∀ f : Function, f.artifact ∈ module.walk → ∀ ps, s.paths? f = some ps →
    ∃ ticks, Path.enumerate forest f (.unbounded 0) = (.ok (ps.map Path.way), .unbounded ticks)

theorem Enumerated.rooted (h : Orchard setup.forest module) {insights : Insights}
    (he : Enumerated setup.forest module insights) : insights.Rooted module := by
  intro f hf ps hps p hp
  obtain ⟨ticks, hpaths⟩ := he f hf ps hps
  exact h.owns_of_enumerate hf hpaths p.way (List.mem_map_of_mem hp)

/-- At the end of an analysis that goes through, the paths of every function that was under analysis
carry the sums of what their calls carry. -/
theorem path_durations_agree (setup : Setup) (module : Artifact) (orchard : Orchard setup.forest module)
    (passes : setup.passes = defaultPasses) (insights : Insights)
    (cached : Enumerated setup.forest module insights) (a : Artifact) (start : Orchard.Start module a)
    (complete : (analyze setup insights a).result.isOk = true) (f : Function)
    (entered : Entered setup insights a f) : SumsUp insights (analyze setup insights a).insights f := by
  refine sumsUp_of_agreed ?_ ?_
  · exact analyze_retains setup orchard.sound insights (orchard.holds_start start)
  · exact analyze_agreed orchard passes (cached.rooted orchard) start complete entered

end Analysis

theorem Session.mem_module {drafts : List Draft} {durations : Durations} {f : Function}
    (hf : f ∈ (start drafts durations).functions) : f.artifact ∈ (start drafts durations).module.walk :=
  Artifact.mem_walk_children (Artifact.mem_walk_self _) (List.mem_map_of_mem (f := Function.artifact) hf)

theorem Session.orchard_start (drafts : List Draft) (durations : Durations)
    (unshared : ((start drafts durations).module.walk.map Artifact.id).Nodup)
    (placed : ∀ a ∈ (start drafts durations).module.walk, ∀ e ∈ a.expressions, ∀ b ∈ e.walk,
      b.isFunction = false) :
    Orchard (start drafts durations).forest (start drafts durations).module where
  sound := (sound_start drafts durations).1
  held := (sound_start drafts durations).2
  functions := ⟨_, _, rfl⟩
  unshared := unshared
  targets a _ g hg := by
    refine mem_module ?_
    unfold Forest.target? at hg
    split at hg
    · exact OrderedMap.mem_values_of_get? hg
    · cases hg
  placed := placed

namespace Analysis

/-- A job that cleans up in a function of its own, waits on one of its two paths, and starts over. -/
def pausing : Session :=
  .start [.defining "main" [] [.calling "job" []],
    .defining "job" [] [
      .function none "cleanup" "cleanup" [] (.block none [.calling "slow" []]) none,
      .branch none none (some (.calling "slow" [])) none,
      .calling "job" []],
    .defining "slow" [] []] {}

theorem orchard_pausing : Orchard pausing.forest pausing.module := by
  have unshared : (pausing.module.walk.map Artifact.id).Nodup := by decide +kernel
  have placed : ∀ a ∈ pausing.module.walk, ∀ e ∈ a.expressions, ∀ b ∈ e.walk,
      b.isFunction = false := by decide +kernel
  rw [pausing] at unshared placed ⊢
  exact Session.orchard_start _ _ unshared placed

theorem functions_pausing : pausing.functions ≠ [] :=
  List.isEmpty_eq_false_iff.mp (by decide +kernel)

def pausingMain : Function := pausing.functions.head functions_pausing

theorem mem_pausingMain : pausingMain.artifact ∈ pausing.module.walk := by
  have h : pausingMain ∈ pausing.functions := List.head_mem functions_pausing
  generalize pausingMain = f at h ⊢
  rw [pausing] at h ⊢
  exact Session.mem_module h

/-- The only path of `main`. -/
def mainPath : Path := .ofTrace pausingMain (pausingMain.body.execute fun _ => true)

def mainMeasured : Insights :=
  ({} : Insights).write pausingMain.id ⟨⟨[(.paths, .note (.paths
    [{ mainPath with data := ⟨⟨[(.pathDuration, .insight ⟨.pathDuration, .int 7, false⟩)]⟩⟩ }]))]⟩⟩

theorem enumerated_mainMeasured : Enumerated pausing.forest pausing.module mainMeasured := by
  intro f hf ps hps
  have hid : pausingMain.id = f.id := by
    by_contra hne
    rw [mainMeasured, Insights.paths?, Insights.data_write, if_neg hne, Insights.data_empty] at hps
    cases hps
  obtain rfl := orchard_pausing.function_eq_of_id mem_pausingMain hf hid
  rw [mainMeasured, Insights.paths?, Insights.data_write, if_pos rfl] at hps
  cases hps
  refine ⟨0, ?_⟩
  cbv

def pauses : Durations := ⟨⟨[("slow", .int 500)]⟩⟩

set_option maxRecDepth 20000 in
theorem pausing_sums_up :
    Orchard pausing.forest pausing.module ∧ Enumerated pausing.forest pausing.module mainMeasured ∧
      (analyze { forest := pausing.forest, durations := pauses } mainMeasured
        pausing.module).result.isOk = true ∧
      Entered { forest := pausing.forest, durations := pauses } mainMeasured pausing.module pausingMain ∧
      SumsUp mainMeasured (analyze { forest := pausing.forest, durations := pauses } mainMeasured
        pausing.module).insights pausingMain := by
  have hok : (analyze { forest := pausing.forest, durations := pauses } mainMeasured
      pausing.module).result.isOk = true := by cbv
  have hstack : (moment { forest := pausing.forest, durations := pauses } mainMeasured (.unbounded 0)
      pausing.module 6).state.stack = [pausingMain] := by cbv
  have orchard := orchard_pausing
  have enumerated := enumerated_mainMeasured
  generalize pausing = session at hok hstack orchard enumerated ⊢
  have entered : Entered { forest := session.forest, durations := pauses } mainMeasured session.module
      pausingMain :=
    ⟨.unbounded 0, 6, rfl, hstack ▸ List.mem_singleton_self _⟩
  exact ⟨orchard, enumerated, hok, entered, path_durations_agree _ session.module orchard rfl mainMeasured
    enumerated session.module (.inl rfl) hok pausingMain entered⟩

end Analysis

end CallTime

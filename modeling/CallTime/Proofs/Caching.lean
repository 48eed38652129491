import Mathlib
import CallTime.Proofs.Measured
import CallTime.Report.Build

/-!
The cache of paths.

The paths of a function are built on first use and kept on it, from the analysis, from reports and on
request, on whatever clock there is. Main statement: whatever is done in whatever order, and however it
ends, the paths that a function carries are the ones that building them anew gives.
-/

namespace CallTime

namespace Path

variable {forest : Forest} {f : Function} {paths : List Path}

def Current (forest : Forest) (f : Function) (paths : List Path) : Prop :=
  (enumerate forest f (.unbounded 0)).1 = .ok (paths.map way)

open Artifact (traces)

theorem Current.map_way (h : Current forest f paths) :
    paths.map way = (traces f.body).map (ofTrace f) :=
  eq_of_enumerate (Prod.ext h rfl)

theorem Current.function_eq (h : Current forest f paths) : ∀ p ∈ paths, p.function = f := by
  intro p hp
  have hw : p.way ∈ (traces f.body).map (ofTrace f) := h.map_way ▸ List.mem_map_of_mem hp
  obtain ⟨t, -, ht⟩ := List.mem_map.mp hw
  exact (congrArg Path.function ht).symm

theorem map_way_of_enumerate {c c' : Clock} (h : enumerate forest f c = (.ok paths, c')) :
    paths.map way = paths := by
  rw [eq_of_enumerate h, List.map_map]
  rfl

/-- A clock that lets the paths be built has no say in what they are. -/
theorem current_of_enumerate {c c' : Clock} (h : enumerate forest f c = (.ok paths, c')) :
    Current forest f paths := by
  obtain ⟨n, -, hn⟩ := enumerate_eq forest f
  obtain ⟨k, hk⟩ := (Timed.pays_forks n).unbounded 0
  rw [Current, map_way_of_enumerate h, hn, Timed.bind_apply, hk, mapM_make_of_enumerate h]
  rfl

theorem current_of_unshared (sound : forest.Sound) (held : forest.Holds f.artifact)
    (tree : forest.Unshared f) : Current forest f ((traces f.body).map (ofTrace f)) := by
  obtain ⟨k, hk⟩ := (pays_enumerate sound held tree).unbounded 0
  exact current_of_enumerate hk

theorem map_way_of_map_kept {ps qs : List Path} (h : qs.map kept = ps.map kept) :
    qs.map way = ps.map way := by
  have hw := congrArg (List.map Prod.fst) h
  rwa [List.map_map, List.map_map] at hw

/-- A property that paths have when they are built and that depends on their ways only. -/
structure Lasting (forest : Forest) (P : Function → List Path → Prop) : Prop where
  built : ∀ f c c' paths, enumerate forest f c = (.ok paths, c') → P f paths
  ways : ∀ f ps qs, qs.map way = ps.map way → P f ps → P f qs

theorem lasting_current (forest : Forest) : Lasting forest (Current forest) where
  built _ _ _ _ h := current_of_enumerate h
  ways f ps qs h hp := by
    rw [Current, h]
    exact hp

end Path

namespace Insights

def Caches (forest : Forest) (P : Function → List Path → Prop) (s : Insights) : Prop :=
  ∀ f, forest.Holds f.artifact → ∀ ps, s.paths? f = some ps → P f ps

variable {forest : Forest} {P : Function → List Path → Prop} {s t : Insights}

theorem paths?_eq_none {f : Function} (h : s.get? f.id .paths = none) : s.paths? f = none :=
  congrArg (fun e => (e.bind Entry.note?).bind Note.paths?) h

theorem caches_empty : ({} : Insights).Caches forest P := by
  intro f _ ps h
  rw [paths?_eq_none (get?_empty f.id .paths)] at h
  cases h

theorem Caches.congr (h : s.Caches forest P) (hp : ∀ i, t.get? i .paths = s.get? i .paths) :
    t.Caches forest P :=
  fun f hf ps ht => h f hf ps (paths?_congr (hp f.id) ▸ ht)

/-- The step from `s` to `t` keeps the property of what is cached. -/
def KeepsCached (forest : Forest) (P : Function → List Path → Prop) (s t : Insights) : Prop :=
  s.Caches forest P → t.Caches forest P

end Insights

namespace Analysis

open Run Insights

variable {forest : Forest} {P : Function → List Path → Prop} {s : State} {f : Function}

theorem frame_keepsCached : Frame (Between (KeepsCached forest P)) :=
  frame_between (fun _ h => h) fun h h' hs => h' (h hs)

theorem tolerates_keepsCached {k : Key} (hk : k ≠ .paths) (i : NodeId) :
    Tolerates (Between (KeepsCached forest P)) i k where
  put s e hs := hs.congr fun _ => s.get?_put_of_ne (.inr hk) e
  drop _ s hs := hs.congr fun j => by
    rw [s.get?_drop]
    exact if_neg fun h => hk h.2

theorem caches_put (h : s.insights.Caches forest P) (hf : forest.Holds f.artifact)
    {paths : List Path} (hp : P f paths) :
    (s.put f.id .paths (.note (.paths paths))).insights.Caches forest P := by
  intro g hg ps hps
  by_cases hid : f.id = g.id
  · obtain rfl : f = g := Function.artifact_injective (hf.eq hg hid)
    rw [s.paths?_put f paths] at hps
    cases hps
    exact hp
  · rw [paths?_congr (s.get?_put_of_ne (.inl hid) _)] at hps
    exact h g hg ps hps

theorem caches_drop (h : s.insights.Caches forest P) (i : NodeId) :
    (s.drop i .paths).insights.Caches forest P := by
  intro g hg ps hps
  have hget := s.get?_drop i g.id .paths .paths
  by_cases hid : i = g.id
  · rw [if_pos ⟨hid, rfl⟩] at hget
    rw [paths?_eq_none hget] at hps
    cases hps
  · rw [if_neg fun h => hid h.1] at hget
    exact h g hg ps (paths?_congr hget ▸ hps)

section Lasting

variable (lasting : Path.Lasting forest P)

include lasting

theorem keepsCached_pathsOf (hf : forest.Holds f.artifact) :
    Respects (Between (KeepsCached forest P)) (pathsOf forest f) := by
  intro s hs
  obtain ⟨ps, -, h⟩ | ⟨-, ⟨e, c, -, h⟩ | ⟨ps, c, es, hps, h⟩⟩ := pathsOf_cases forest f s <;> rw [h]
  · exact hs
  · exact hs
  · exact caches_put hs hf (lasting.built f _ _ ps hps)

theorem keepsCached_pathDurations (hf : forest.Holds f.artifact) :
    Respects (Between (KeepsCached forest P)) (pathDurations f) := by
  intro s hs
  obtain ⟨-, h⟩ | ⟨ps, hps, ⟨e, -, h⟩ | ⟨ds, es, hds, h⟩⟩ := pathDurations_cases f s <;> rw [h]
  · exact hs
  · exact hs
  · refine caches_put hs hf (lasting.ways f ps _ ?_ (hs f hf ps hps))
    exact Path.map_way_of_map_kept (map_kept_updated (forall₂_of_mapM hds).length_eq)

theorem keepsCached_make (path : Option String) (language module : String) {fs : List Function}
    (hfs : ∀ f ∈ fs, forest.Holds f.artifact) :
    Respects (Between (KeepsCached forest P)) (Report.make forest path language module fs) := by
  have F : Frame (Between (KeepsCached forest P)) := frame_keepsCached
  refine respects_bind F (respects_mapM F fun f hf => ?_) fun _ => ?_
  · refine respects_bind F (keepsCached_pathsOf lasting (hfs f hf)) fun _ => ?_
    refine respects_bind F (respects_lift F _) fun _ => ?_
    refine respects_bind F (respects_mapM F fun _ _ => respects_lift F _) fun _ => ?_
    exact respects_pure F _
  · refine respects_bind F (respects_mapM F fun f _ => ?_) fun _ => respects_pure F _
    exact respects_bind F (respects_insights F) fun _ => respects_lift F _

end Lasting

section Moments

variable {setup : Setup} (lasting : Path.Lasting setup.forest P) (sound : setup.forest.Sound)

include lasting sound

theorem writes_keepsCached {task : Task} (ht : task.Within setup.forest.Holds) :
    task.Writes (KeepsCached setup.forest P) setup where
  paths g hg := by
    refine keepsCached_pathsOf lasting ?_
    cases task with
    | enter f => exact hg ▸ ht
    | passes a ps => exact sound.target hg
    | settle call f => exact hg ▸ ht.2
    | _ => cases hg
  store call _ _ := respects_storeDuration frame_keepsCached
    (tolerates_keepsCached (by decide) _) (tolerates_keepsCached (by decide) _)
  drop call _ _ := respects_dropDerived frame_keepsCached
    (tolerates_keepsCached (by decide) _) (tolerates_keepsCached (by decide) _)
  sums f ps h := by
    subst h
    exact keepsCached_pathDurations lasting ht

theorem step_caches {m : Moment} (ho : m.Orderly setup.forest)
    (h : m.state.insights.Caches setup.forest P) :
    (step setup m).state.insights.Caches setup.forest P := by
  refine step_between frame_keepsCached (fun i k hk => tolerates_keepsCached ?_ i)
    (fun task tasks hm _ => writes_keepsCached lasting sound (ho.tasks task ?_)) h
  · obtain rfl | rfl | rfl := hk <;> decide
  · exact hm ▸ List.mem_cons_self

theorem moment_caches {insights : Insights} (h : insights.Caches setup.forest P) (clock : Clock)
    {a : Artifact} (ha : setup.forest.Holds a) (n : Nat) :
    (moment setup insights clock a n).state.insights.Caches setup.forest P := by
  induction n with
  | zero => exact h
  | succ n ih =>
    rw [moment_succ]
    exact step_caches lasting sound (moment_orderly sound insights clock ha n) ih

theorem analyze_caches {insights : Insights} (h : insights.Caches setup.forest P) {a : Artifact}
    (ha : setup.forest.Holds a) : (analyze setup insights a).insights.Caches setup.forest P := by
  cases hc : Clock.forLimit setup.settings.maxTicks with
  | error e =>
    rw [analyze, hc]
    exact h
  | ok clock =>
    obtain ⟨n, -, hn⟩ := exists_moment_eq_analyze sound insights ha hc
    rw [← hn]
    exact moment_caches lasting sound h clock ha n

end Moments

/-- What can be done with the functions of a forest: an analysis, which may have been stopped at any
moment, a request for the paths of a function on any clock, taking back the paths that are cached, and a
report. -/
inductive Used (forest : Forest) : Insights → Insights → Prop
  | analyzed (setup : Setup) (same : setup.forest = forest) (a : Artifact) (held : forest.Holds a)
    (s : Insights) : Used forest s (analyze setup s a).insights
  | stopped (setup : Setup) (same : setup.forest = forest) (clock : Clock) (a : Artifact)
    (held : forest.Holds a) (n : Nat) (s : Insights) :
    Used forest s (moment setup s clock a n).state.insights
  | requested (f : Function) (held : forest.Holds f.artifact) (clock : Clock) (s : Insights) :
    Used forest s (pathsOf forest f { insights := s, clock }).2.insights
  | invalidated (f : Function) (clock : Clock) (s : Insights) :
    Used forest s (remove f.id .paths { insights := s, clock }).2.insights
  | reported (path : Option String) (language module : String) (fs : List Function)
    (held : ∀ f ∈ fs, forest.Holds f.artifact) (clock : Clock) (s : Insights) :
    Used forest s (Report.make forest path language module fs { insights := s, clock }).2.insights

theorem Used.caches (lasting : Path.Lasting forest P) (sound : forest.Sound) {s t : Insights}
    (h : Used forest s t) (hs : s.Caches forest P) : t.Caches forest P := by
  cases h with
  | analyzed setup same a held =>
    subst same
    exact analyze_caches lasting sound hs held
  | stopped setup same clock a held n =>
    subst same
    exact moment_caches lasting sound hs clock held n
  | requested f held clock => exact keepsCached_pathsOf lasting held { insights := s, clock } hs
  | invalidated f clock => exact caches_drop (s := { insights := s, clock }) hs f.id
  | reported path language module fs held clock =>
    exact keepsCached_make lasting path language module held { insights := s, clock } hs

theorem pathsOf_of_error {e : Fault} (h : (pathsOf forest f s).1 = .error e) :
    (pathsOf forest f s).2.insights = s.insights := by
  obtain ⟨ps, -, hp⟩ | ⟨-, ⟨e', c, -, hp⟩ | ⟨ps, c, es, -, hp⟩⟩ := pathsOf_cases forest f s <;>
    rw [hp] at h ⊢
  cases h

open Relation

/-- Whatever is done, the paths that a function carries afterwards are its own, and they are the ones
that building them anew gives. Where building them fails, nothing is cached. -/
theorem cached_paths_current (sound : forest.Sound) {s t : Insights}
    (start : s.Caches forest (Path.Current forest)) (h : ReflTransGen (Used forest) s t) :
    (∀ f, forest.Holds f.artifact → ∀ ps, t.paths? f = some ps →
      Path.Current forest f ps ∧ ∀ p ∈ ps, p.function = f) ∧
    ∀ f clock stack events e, (pathsOf forest f ⟨t, clock, stack, events⟩).1 = .error e →
      (pathsOf forest f ⟨t, clock, stack, events⟩).2.insights = t := by
  have hcaches : t.Caches forest (Path.Current forest) := by
    induction h with
    | refl => exact start
    | tail _ h ih => exact h.caches (Path.lasting_current forest) sound ih
  refine ⟨fun f hf ps hps => ?_, fun f clock stack events e he => pathsOf_of_error he⟩
  have hcurrent := hcaches f hf ps hps
  exact ⟨hcurrent, hcurrent.function_eq⟩

open CallTime.Path (guarded guardedFunction sound_guarded holds_guarded)

/-- A request for the paths of `guarded` with so many ticks. -/
def request (limit : Int) (s : Insights) : Except Fault (List Path) × State :=
  pathsOf guarded.forest guardedFunction { insights := s, clock := .metered limit 0 }

/-- Three ticks are too few for the paths of `guarded`, twelve are enough. -/
theorem cached_paths_current_guarded :
    ReflTransGen (Used guarded.forest) {} (request 12 (request 3 {}).2.insights).2.insights ∧
      (request 3 {}).1 = .error (.exhausted 4 3) ∧ (request 3 {}).2.insights = {} ∧
      ∃ ps, (request 12 (request 3 {}).2.insights).2.insights.paths? guardedFunction = some ps ∧
        ps.length = 5 ∧ Path.Current guarded.forest guardedFunction ps := by
  have used (limit : Int) (s : Insights) : Used guarded.forest s (request limit s).2.insights :=
    .requested guardedFunction holds_guarded (.metered limit 0) s
  have h := ReflTransGen.tail (.single (used 3 {})) (used 12 _)
  have hfails : (request 3 {}).1 = .error (.exhausted 4 3) := by cbv
  have hcount : ((request 12 {}).2.insights.paths? guardedFunction).map List.length = some 5 := by cbv
  have hempty : (request 3 {}).2.insights = {} :=
    (cached_paths_current sound_guarded.1 caches_empty .refl).2 guardedFunction (.metered 3 0) [] #[]
      _ hfails
  rw [hempty] at h ⊢
  obtain ⟨ps, hps, hlength⟩ := Option.map_eq_some_iff.mp hcount
  have hcurrent := (cached_paths_current sound_guarded.1 caches_empty h).1 guardedFunction
    holds_guarded ps hps
  exact ⟨h, hfails, rfl, ps, hps, hlength, hcurrent.1⟩

end Analysis

end CallTime

import Mathlib.Tactic.Choose
import CallTime.Proofs.Reference
import CallTime.Proofs.Steps

/-!
Durations on calls and on paths.

Main statement: where the calls of a function carry their costs, the pass over paths gives the paths of
the function the durations of the reference.
-/

namespace CallTime

open Analysis

namespace Path

theorem forgetDerived_timed (p : Path) (d : Option Int) : forgetDerived (p.timed d) = p.timed none := by
  cases d <;> rfl

theorem addUp_timed (p : Path) (d : Option Int) (durations : List Int) :
    addUp (p.timed d) durations = p.timed (some (durations.foldr (· + ·) 0)) := by
  cases d <;> rfl

theorem timed_none {p : Path} (h : p.data = {}) : p.timed none = p := by
  obtain ⟨function, conditions, artifacts, data⟩ := p
  obtain rfl : data = {} := h
  rfl

theorem zipWith_timed_none {paths : List Path} (h : ∀ p ∈ paths, p.data = {}) :
    paths.zipWith timed (paths.map fun _ => none) = paths := by
  induction paths with
  | nil => rfl
  | cons p paths ih =>
    rw [List.map_cons, List.zipWith_cons_cons, timed_none (h p List.mem_cons_self),
      ih fun q hq => h q (List.mem_cons_of_mem p hq)]

@[simp] theorem calls_timed (p : Path) (d : Option Int) : (p.timed d).calls = p.calls := by
  cases d <;> rfl

@[simp] theorem conditions_timed (p : Path) (d : Option Int) :
    (p.timed d).conditions = p.conditions := by
  cases d <;> rfl

theorem map_zipWith_timed {β : Type} (g : Path → β) (hg : ∀ p d, g (p.timed d) = g p)
    (paths : List Path) {old : List (Option Int)} (ho : old.length = paths.length) :
    (paths.zipWith timed old).map g = paths.map g := by
  induction paths generalizing old with
  | nil => rfl
  | cons p paths ih =>
    obtain _ | ⟨d, old⟩ := old
    · cases ho
    rw [List.zipWith_cons_cons, List.map_cons, List.map_cons, hg, ih (Nat.succ.inj ho)]

theorem exists_timed_of_mem {paths : List Path} {old : List (Option Int)} {q : Path}
    (h : q ∈ paths.zipWith timed old) : ∃ p ∈ paths, ∃ d, q = p.timed d := by
  induction paths generalizing old with
  | nil => cases h
  | cons p paths ih =>
    obtain _ | ⟨d, old⟩ := old
    · cases h
    obtain rfl | h := List.mem_cons.mp h
    · exact ⟨p, List.mem_cons_self, d, rfl⟩
    · obtain ⟨p', hp, hd⟩ := ih h
      exact ⟨p', List.mem_cons_of_mem p hp, hd⟩

theorem map_forgetDerived (paths : List Path) {old : List (Option Int)} {β : Type} (known : List β)
    (ho : old.length = paths.length) (hk : known.length = paths.length) :
    (paths.zipWith timed old).map forgetDerived = paths.zipWith timed (known.map fun _ => none) := by
  induction paths generalizing old known with
  | nil => rfl
  | cons p paths ih =>
    obtain _ | ⟨d, old⟩ := old
    · cases ho
    obtain _ | ⟨_, known⟩ := known
    · cases hk
    simp only [List.zipWith_cons_cons, List.map_cons, forgetDerived_timed]
    rw [ih known (Nat.succ.inj ho) (Nat.succ.inj hk)]

theorem zipWith_addUp (paths : List Path) {old : List (Option Int)} (known : List (List Int))
    (ho : old.length = paths.length) :
    (paths.zipWith timed old).zipWith addUp known =
      paths.zipWith timed (known.map fun durations => some (durations.foldr (· + ·) 0)) := by
  induction paths generalizing old known with
  | nil => rfl
  | cons p paths ih =>
    obtain _ | ⟨d, old⟩ := old
    · cases ho
    obtain _ | ⟨durations, known⟩ := known
    · rfl
    simp only [List.zipWith_cons_cons, List.map_cons, addUp_timed]
    rw [ih known (Nat.succ.inj ho)]

theorem length_totals (known : List (List Int)) : (totals known).length = known.length := by
  rw [totals]
  split <;> exact List.length_map _

theorem updated_eq (paths : List Path) {old : List (Option Int)} {known : List (List Int)}
    (ho : old.length = paths.length) (hk : known.length = paths.length) :
    (if known.all List.isEmpty then (paths.zipWith timed old).map forgetDerived
      else (paths.zipWith timed old).zipWith addUp known) = paths.zipWith timed (totals known) := by
  rw [totals]
  split
  · exact map_forgetDerived paths known ho hk
  · exact zipWith_addUp paths known ho

theorem duration?_timed (p : Path) (d : Option Int) : (p.timed d).duration? = d.map .int := by
  cases d <;> rfl

theorem filterMap_duration? {paths : List Path} (h : ∀ q ∈ paths, ∃ p d, q = timed p d) :
    ∃ ns : List Int, paths.filterMap duration? = ns.map .int := by
  induction paths with
  | nil => exact ⟨[], rfl⟩
  | cons q paths ih =>
    obtain ⟨ns, hns⟩ := ih fun q' hq => h q' (List.mem_cons_of_mem q hq)
    obtain ⟨p, d, rfl⟩ := h q List.mem_cons_self
    rw [List.filterMap_cons, duration?_timed]
    cases d with
    | none => exact ⟨ns, hns⟩
    | some n => exact ⟨n :: ns, congrArg (Value.int n :: ·) hns⟩

theorem foldlM_add_int (ns : List Int) (m : Int) :
    (ns.map Value.int).foldlM Value.add (.int m) = .ok (.int (ns.foldl (· + ·) m)) := by
  induction ns generalizing m with
  | nil => rfl
  | cons n ns ih => exact ih (m + n)

theorem pack_ne_nan (negative : Bool) (significand : Nat) (exponent : Int) (mark : Option Nat) :
    Binary64.pack negative significand exponent ≠ .nan mark := by
  unfold Binary64.pack
  generalize (if significand = 1 <<< 53 then (1 <<< 52, exponent + 1)
    else (significand, exponent)) = r
  obtain ⟨m, e⟩ := r
  by_cases he : Binary64.maxExponent < e <;> simp [he]

theorem ofRatio_ne_nan (negative : Bool) (num den : Nat) (mark : Option Nat) :
    Binary64.ofRatio negative num den ≠ .nan mark := by
  rw [Binary64.ofRatio]
  split
  · exact fun h => by cases h
  · exact pack_ne_nan _ _ _ _

/-- A quotient of whole numbers has a whole part unless it is too large. -/
theorem toInt_div_int {a : Int} {b : Nat} (hb : b ≠ 0) {e : Fault}
    (h : (do return some (← (← (Value.int a).div (.int b)).toInt) : Except Fault (Option Int)) =
      .error e) : e = .quotientTooLarge := by
  have hdiv : (Value.int a).div (.int b) = do return .float (← Number.intDiv a b) := rfl
  rw [hdiv, Number.intDiv, if_neg (Int.natCast_ne_zero.mpr hb)] at h
  rcases hr : Binary64.ofRatio ((a < 0) != ((b : Int) < 0)) a.natAbs (b : Int).natAbs
    with m | n | ⟨n, m, x⟩
  · exact absurd hr (ofRatio_ne_nan _ _ _ _)
  · rw [hr] at h
    cases h
    rfl
  · rw [hr] at h
    cases h

theorem average_eq_error {paths : List Path} (h : ∀ q ∈ paths, ∃ p d, q = timed p d) {e : Fault}
    (he : average paths = .error e) : e = .quotientTooLarge := by
  obtain ⟨ns, hns⟩ := filterMap_duration? h
  rw [average, hns] at he
  cases ns with
  | nil => cases he
  | cons n ns =>
    have hsum := foldlM_add_int (n :: ns) 0
    rw [List.map_cons] at hsum he
    simp only [hsum] at he
    exact toInt_div_int (Nat.succ_ne_zero _) he

theorem admits_eq_error {arguments : List Artifact} {conditions : List (Artifact × Bool)} {e : Fault}
    (h : admits arguments conditions = .error e) :
    ∃ c ∈ conditions, Artifact.branchPossible (conditionOf c.1) c.2 arguments = .error e := by
  induction conditions with
  | nil => cases h
  | cons c conditions ih =>
    obtain ⟨branch, taken⟩ := c
    rw [admits] at h
    obtain hb | ⟨possible, -, h⟩ := error_of_bind h
    · exact ⟨_, List.mem_cons_self, hb⟩
    · cases possible with
      | false => cases h
      | true =>
        obtain ⟨c, hc, he⟩ := ih h
        exact ⟨c, List.mem_cons_of_mem _ hc, he⟩

theorem candidates_eq_error {arguments : List Artifact} {paths : List Path} {e : Fault}
    (h : candidates arguments paths = .error e) :
    ∃ p ∈ paths, ∃ c ∈ p.conditions,
      Artifact.branchPossible (conditionOf c.1) c.2 arguments = .error e := by
  induction paths with
  | nil => cases h
  | cons p paths ih =>
    rw [candidates] at h
    obtain ha | ⟨possible, -, h⟩ := error_of_bind h
    · exact ⟨p, List.mem_cons_self, admits_eq_error ha⟩
    · obtain hr | ⟨rest, -, h⟩ := error_of_bind h
      · obtain ⟨q, hq, hc⟩ := ih hr
        exact ⟨q, List.mem_cons_of_mem p hq, hc⟩
      · cases h

theorem sublist_of_candidates {arguments : List Artifact} {paths ps : List Path}
    (h : candidates arguments paths = .ok ps) : ps.Sublist paths := by
  induction paths generalizing ps with
  | nil =>
    cases h
    exact .slnil
  | cons p paths ih =>
    rw [candidates] at h
    obtain ⟨possible, -, h⟩ := ok_of_bind h
    obtain ⟨rest, hr, h⟩ := ok_of_bind h
    cases possible <;> cases h
    · exact (ih hr).cons p
    · exact (ih hr).cons_cons p

end Path

structure Shows (insights : Insights) (call : Artifact) (cost : Cost) : Prop where
  duration : insights.duration? call.id = cost.map (fun c => durationInsight c.1)
  source : insights.durationSource? call.id = cost.map (fun c => .str c.2)

theorem Shows.congr {s t : Insights} {call : Artifact} {c : Cost} (h : Shows s call c)
    (hd : t.get? call.id .functionDuration = s.get? call.id .functionDuration)
    (hs : t.get? call.id .durationSource = s.get? call.id .durationSource) : Shows t call c :=
  ⟨(Insights.duration?_congr hd).trans h.duration, (Insights.durationSource?_congr hs).trans h.source⟩

theorem Shows.derived {insights : Insights} {call : Artifact} {c : Cost} (h : Shows insights call c)
    {i : Insight} (hi : insights.duration? call.id = some i) : i.derived = true := by
  rw [h.duration] at hi
  obtain ⟨_, -, rfl⟩ := Option.map_eq_some_iff.mp hi
  rfl

def CostOf (call : Artifact) (i : NodeId) (k : Key) : Prop :=
  i = call.id ∧ (k = .functionDuration ∨ k = .durationSource)

structure Writes (s t : State) (call : Artifact) (c : Cost) : Prop where
  stack : t.stack = s.stack
  clock : t.clock = s.clock
  spares : Spares (CostOf call) s t
  shows : Shows t.insights call c

theorem storeDuration_writes {s : State} {call : Artifact} {c : Cost} (h : Shows s.insights call c)
    (duration : Int) (source : String) :
    ∃ t, storeDuration call duration source s = (.ok (), t) ∧
      Writes s t call (some (duration, source)) := by
  have hd : ∀ i, s.insights.duration? call.id = some i → i.derived = true := fun i => h.derived
  obtain ⟨es, hs⟩ := storeDuration_apply hd duration source
  refine ⟨_, hs, rfl, rfl, ?_, ?_, ?_⟩
  · exact frame_spares.trans ((tolerates_spares ⟨rfl, .inl rfl⟩).put s _)
      ((tolerates_spares ⟨rfl, .inr rfl⟩).put _ _)
  · exact Insights.duration?_of_get?
      ((State.get?_put_of_ne _ (.inr (by decide)) _).trans (s.get?_put_insight hd _))
  · exact Insights.durationSource?_of_get? (State.get?_put_note _ _ _ _)

theorem dropDerived_writes {s : State} {call : Artifact} {c : Cost} (h : Shows s.insights call c) :
    ∃ t, dropDerived call s = (.ok (), t) ∧ Writes s t call none := by
  cases c with
  | none => exact ⟨s, dropDerived_of_none h.duration, rfl, rfl, frame_spares.refl s, h⟩
  | some c =>
    refine ⟨_, dropDerived_of_derived h.duration rfl, rfl, rfl, ?_, ?_, ?_⟩
    · exact frame_spares.trans ((tolerates_spares ⟨rfl, .inl rfl⟩).drop (.inl rfl) s)
        ((tolerates_spares ⟨rfl, .inr rfl⟩).drop (.inr rfl) _)
    · refine Insights.duration?_of_get? (e := none) ?_
      rw [State.get?_drop, State.get?_drop]
      simp
    · refine Insights.durationSource?_of_get? (e := none) ?_
      rw [State.get?_drop]
      simp

theorem mapM_toInt_filterMap {α : Type} {as : List α} {found : α → Option Insight} {cost : α → Cost}
    (h : ∀ a ∈ as, found a = (cost a).map fun c => durationInsight c.1) :
    (as.filterMap found).mapM (fun i => i.value.toInt) =
      .ok (as.filterMap fun a => (cost a).map Prod.fst) := by
  induction as with
  | nil => rfl
  | cons a as ih =>
    have hrest := ih fun b hb => h b (List.mem_cons_of_mem a hb)
    rw [List.filterMap_cons, List.filterMap_cons, h a List.mem_cons_self]
    cases cost a with
    | none => exact hrest
    | some c =>
      simp only [Option.map_some]
      rw [List.mapM_cons, hrest]
      rfl

theorem knownDurations_calls (insights : Insights) (p : Path) :
    knownDurations insights p =
      (p.calls.filterMap fun call => insights.duration? call.id).mapM fun i => i.value.toInt := by
  rw [knownDurations, Path.calls, List.filterMap_filter]
  congr 2
  funext a
  cases a <;> rfl

theorem knownDurations_eq {insights : Insights} {p : Path} {cost : Artifact → Cost}
    (h : ∀ call ∈ p.calls, Shows insights call (cost call)) :
    knownDurations insights p = .ok (p.calls.filterMap fun call => (cost call).map Prod.fst) := by
  rw [knownDurations_calls, mapM_toInt_filterMap fun call hc => (h call hc).duration]

namespace Program

variable {P : Program} {f : Function} {s : State}

theorem timedPaths_eq (hP : P.Plain) (hf : f ∈ P.functions) {cost : Artifact → Except Fault Cost}
    {c : Artifact → Cost} (hc : ∀ call ∈ body f, call.isCall → cost call = .ok (c call)) :
    P.timedPaths cost f = .ok ((P.paths f).zipWith Path.timed (Path.totals
      ((P.paths f).map fun p => p.calls.filterMap fun call => (c call).map Prod.fst))) := by
  have hknown : ∀ p ∈ P.paths f,
      (do return (← p.calls.mapM cost).filterMap (·.map Prod.fst) : Except Fault (List Int)) =
        .ok (p.calls.filterMap fun call => (c call).map Prod.fst) := by
    intro p hp
    have hin := in_of_mem_paths hf (hP.flat f hf) p hp
    rw [mapM_eq_ok fun call h => hc call (mem_body_of_mem_calls hin h) (List.mem_filter.mp h).2]
    change Except.ok _ = _
    rw [List.filterMap_map]
    rfl
  rw [timedPaths, mapM_eq_ok hknown]
  rfl

/-- The pass over paths follows the reference, whatever durations the paths had. -/
theorem pathDurations_eq (hP : P.Plain) (hf : f ∈ P.functions)
    {cost : Artifact → Except Fault Cost}
    (hc : ∀ call ∈ body f, call.isCall → ∃ c, cost call = .ok c ∧ Shows s.insights call c)
    {old : List (Option Int)} (ho : old.length = (P.paths f).length)
    (hp : s.insights.paths? f = some ((P.paths f).zipWith Path.timed old)) :
    ∃ ds es, ds.length = (P.paths f).length ∧
      P.timedPaths cost f = .ok ((P.paths f).zipWith Path.timed ds) ∧ pathDurations f s =
        (.ok (), { s.put f.id .paths (.note (.paths ((P.paths f).zipWith Path.timed ds))) with
          events := es }) := by
  choose! c hcost using hc
  let known (p : Path) : List Int := p.calls.filterMap fun call => (c call).map Prod.fst
  have hread : ∀ q ∈ (P.paths f).zipWith Path.timed old, knownDurations s.insights q = .ok (known q) := by
    intro q hq
    obtain ⟨p, hp, d, rfl⟩ := Path.exists_timed_of_mem hq
    have hin := in_of_mem_paths hf (hP.flat f hf) p hp
    refine knownDurations_eq fun call h => ?_
    rw [Path.calls_timed] at h
    exact (hcost call (mem_body_of_mem_calls hin h) (List.mem_filter.mp h).2).2
  have hmap : ((P.paths f).zipWith Path.timed old).map known = (P.paths f).map known :=
    Path.map_zipWith_timed known (fun p d => by simp only [known, Path.calls_timed]) _ ho
  obtain ⟨es, h⟩ := pathDurations_apply hp (mapM_eq_ok hread)
  rw [hmap, Path.updated_eq _ ho (List.length_map _)] at h
  refine ⟨_, es, (Path.length_totals _).trans (List.length_map _), ?_, h⟩
  exact timedPaths_eq hP hf fun call hb hcall => (hcost call hb hcall).1

end Program

end CallTime

import CallTime.Proofs.Caching
import CallTime.Proofs.Durations

/-!
The paths that a call can take.

The arguments of a call decide some of the branches of the called function, and a path is a candidate if
none of its outcomes is ruled out. Main statement: the candidates are the executions that choose a
possible outcome at every branch; there always is one, and where all conditions are known there is only
one, the execution that goes by their truth values.
-/

namespace CallTime

namespace Path

variable {arguments : List Artifact} {conditions : List (Artifact × Bool)} {forest : Forest}
  {f : Function} {paths cs : List Path}

def Possible (arguments : List Artifact) (c : Artifact × Bool) : Prop :=
  Artifact.branchPossible (conditionOf c.1) c.2 arguments = .ok true

def Decided (arguments : List Artifact) (branch : Artifact) (truth : Bool) : Prop :=
  ∃ o, Artifact.conditionValue arguments (conditionOf branch) = .ok (some o) ∧
    o.value.truth = .ok truth

/-- The branches of a path up to the first outcome that is ruled out. Only their conditions are
evaluated. -/
inductive Evaluates (arguments : List Artifact) : List (Artifact × Bool) → Artifact → Prop
  | here {c : Artifact × Bool} {rest : List (Artifact × Bool)} : Evaluates arguments (c :: rest) c.1
  | next {c : Artifact × Bool} {rest : List (Artifact × Bool)} {branch : Artifact} :
    Possible arguments c → Evaluates arguments rest branch → Evaluates arguments (c :: rest) branch

def Readable (arguments : List Artifact) (conditions : List (Artifact × Bool)) : Prop :=
  ∀ branch, Evaluates arguments conditions branch →
    ∃ reading, Artifact.conditionValue arguments (conditionOf branch) = .ok reading

variable {branch : Artifact} {truth taken : Bool} {reading : Option Object}

theorem Decided.branchPossible (h : Decided arguments branch truth) (taken : Bool) :
    Artifact.branchPossible (conditionOf branch) taken arguments = .ok (truth == taken) := by
  obtain ⟨o, ho, ht⟩ := h
  rw [Artifact.branchPossible, ho]
  simp only [bind, Except.bind, ht]
  rfl

theorem Decided.eq (h : Decided arguments branch truth) (hp : Possible arguments (branch, taken)) :
    truth = taken := by
  rw [Possible, h.branchPossible] at hp
  exact beq_iff_eq.mp (Except.ok.inj hp)

/-- A condition that is unknown, or has no truth value, leaves both outcomes open. -/
theorem decided_or_open
    (h : Artifact.conditionValue arguments (conditionOf branch) = .ok reading) :
    (∃ truth, Decided arguments branch truth) ∨ ∀ taken, Possible arguments (branch, taken) := by
  simp only [Possible, Artifact.branchPossible, h, bind, Except.bind]
  cases reading with
  | none => exact .inr fun _ => rfl
  | some o =>
    cases ho : o.value.truth with
    | error e => exact .inr fun _ => by simp only [ho]; rfl
    | ok truth => exact .inl ⟨truth, o, h, ho⟩

theorem exists_branchPossible
    (h : Artifact.conditionValue arguments (conditionOf branch) = .ok reading) (taken : Bool) :
    ∃ possible, Artifact.branchPossible (conditionOf branch) taken arguments = .ok possible := by
  obtain ⟨truth, hd⟩ | hp := decided_or_open h
  · exact ⟨_, hd.branchPossible taken⟩
  · exact ⟨true, hp taken⟩

theorem possible_false_of_not
    (h : Artifact.conditionValue arguments (conditionOf branch) = .ok reading)
    (hn : ¬Possible arguments (branch, true)) : Possible arguments (branch, false) := by
  obtain ⟨truth, hd⟩ | hp := decided_or_open h
  · cases truth with
    | false => exact hd.branchPossible false
    | true => exact absurd (hd.branchPossible true) hn
  · exact hp false

theorem Readable.tail {c : Artifact × Bool} (h : Readable arguments (c :: conditions))
    (hc : Possible arguments c) : Readable arguments conditions :=
  fun branch hb => h branch (.next hc hb)

theorem admits_cons_of_possible {c : Artifact × Bool} (hc : Possible arguments c) :
    admits arguments (c :: conditions) = admits arguments conditions := by
  obtain ⟨branch, taken⟩ := c
  rw [admits, show Artifact.branchPossible _ _ _ = _ from hc]
  rfl

theorem admits_eq_true : admits arguments conditions = .ok true ↔
    ∀ c ∈ conditions, Possible arguments c := by
  induction conditions with
  | nil => exact ⟨fun _ => List.forall_mem_nil _, fun _ => rfl⟩
  | cons c conditions ih =>
    rw [List.forall_mem_cons]
    constructor
    · intro h
      have hc : Possible arguments c := by
        obtain ⟨possible, hp, h⟩ := ok_of_bind h
        cases possible with
        | false => cases h
        | true => exact hp
      exact ⟨hc, ih.mp (admits_cons_of_possible hc ▸ h)⟩
    · rintro ⟨hc, h⟩
      rw [admits_cons_of_possible hc]
      exact ih.mpr h

theorem Readable.exists_admits (h : Readable arguments conditions) :
    ∃ possible, admits arguments conditions = .ok possible := by
  induction conditions with
  | nil => exact ⟨true, rfl⟩
  | cons c conditions ih =>
    obtain ⟨reading, hr⟩ := h c.1 .here
    obtain ⟨possible, hp⟩ := exists_branchPossible hr c.2
    cases possible with
    | false => exact ⟨false, by rw [admits, hp]; rfl⟩
    | true =>
      obtain ⟨b, hb⟩ := ih (h.tail hp)
      exact ⟨b, (admits_cons_of_possible hp).trans hb⟩

theorem Readable.possible (h : Readable arguments conditions)
    (hc : ∀ c ∈ conditions, c.2 = true ↔ Possible arguments (c.1, true)) :
    ∀ c ∈ conditions, Possible arguments c := by
  induction conditions with
  | nil => exact List.forall_mem_nil _
  | cons c conditions ih =>
    rw [List.forall_mem_cons] at hc ⊢
    have hpossible : Possible arguments c := by
      obtain ⟨branch, taken⟩ := c
      cases taken with
      | true => exact hc.1.mp rfl
      | false =>
        obtain ⟨reading, hr⟩ := h branch .here
        exact possible_false_of_not hr fun ht => Bool.noConfusion (hc.1.mpr ht)
    exact ⟨hpossible, ih (h.tail hpossible) hc.2⟩

open Classical in
theorem candidates_eq_filter (h : ∀ p ∈ paths, Readable arguments p.conditions) :
    candidates arguments paths =
      .ok (paths.filter fun p => ∀ c ∈ p.conditions, Possible arguments c) := by
  induction paths with
  | nil => rfl
  | cons p paths ih =>
    obtain ⟨hp, hps⟩ := List.forall_mem_cons.mp h
    obtain ⟨possible, hadmits⟩ := hp.exists_admits
    rw [candidates, hadmits, ih hps, List.filter_cons]
    cases possible with
    | true =>
      rw [if_pos (decide_eq_true (admits_eq_true.mp hadmits))]
      rfl
    | false =>
      have hn : ¬∀ c ∈ p.conditions, Possible arguments c := by
        intro hc
        rw [admits_eq_true.mpr hc] at hadmits
        cases hadmits
      rw [if_neg (mt of_decide_eq_true hn)]
      rfl

open Artifact (execute traces)

theorem mem_filter_execute (oracle : NodeId → Bool) (a : Artifact) :
    execute oracle a ∈ (traces a).filter (Trace.follows oracle) := by
  rw [Artifact.filter_traces]
  exact List.mem_singleton_self _

theorem mem_traces_execute (oracle : NodeId → Bool) (a : Artifact) : execute oracle a ∈ traces a :=
  List.mem_of_mem_filter (mem_filter_execute oracle a)

/-- An execution goes down the tree and does what the oracle says. -/
theorem mem_outcomes_execute {oracle : NodeId → Bool} {a : Artifact} {c : Artifact × Bool}
    (hc : c ∈ (execute oracle a).outcomes) : c.1 ∈ a.walk ∧ c.2 = oracle c.1.id := by
  obtain ⟨ht, hf⟩ := List.mem_filter.mp (mem_filter_execute oracle a)
  refine ⟨(Artifact.outcomes_sublist_walk ht).subset (List.mem_map_of_mem hc), ?_⟩
  exact (beq_iff_eq.mp (List.all_eq_true.mp hf c hc)).symm

theorem forall_outcomes {ts : List Trace} (h : paths.map way = ts.map (ofTrace f))
    {P : List (Artifact × Bool) → Prop} (hp : ∀ p ∈ paths, P p.conditions) :
    ∀ t ∈ ts, P t.outcomes := by
  intro t ht
  obtain ⟨p, hpm, he⟩ := List.mem_map.mp (h ▸ List.mem_map_of_mem ht : ofTrace f t ∈ paths.map way)
  have hc : p.conditions = t.outcomes := congrArg conditions he
  exact hc ▸ hp p hpm

open Classical in
noncomputable def openWays (arguments : List Artifact) (body : Artifact) : List Trace :=
  (traces body).filter fun t => ∀ c ∈ t.outcomes, Possible arguments c

open Classical in
theorem mem_openWays {body : Artifact} {t : Trace} : t ∈ openWays arguments body ↔
    t ∈ traces body ∧ ∀ c ∈ t.outcomes, Possible arguments c := by
  rw [openWays, List.mem_filter]
  exact and_congr_right fun _ => decide_eq_true_iff

theorem exists_candidates (current : Current forest f paths)
    (readable : ∀ p ∈ paths, Readable arguments p.conditions) :
    ∃ cs, candidates arguments paths = .ok cs ∧ cs.Sublist paths ∧
      cs.map way = (openWays arguments f.body).map (ofTrace f) := by
  classical
  refine ⟨_, candidates_eq_filter readable, List.filter_sublist, ?_⟩
  have h := congrArg (List.filter fun p => ∀ c ∈ p.conditions, Possible arguments c) current.map_way
  rwa [List.filter_map, List.filter_map] at h

theorem mem_openWays_iff_execute (nodup : (f.body.walk.map Artifact.id).Nodup) {t : Trace} :
    t ∈ openWays arguments f.body ↔
      ∃ oracle, t = execute oracle f.body ∧ ∀ c ∈ t.outcomes, Possible arguments c := by
  rw [mem_openWays]
  constructor
  · rintro ⟨ht, hp⟩
    have hids := nodup.sublist ((Artifact.outcomes_sublist_walk ht).map Artifact.id)
    rw [List.map_map] at hids
    obtain ⟨oracle, he⟩ := Artifact.exists_eq_execute ht hids
    exact ⟨oracle, he, hp⟩
  · rintro ⟨oracle, rfl, hp⟩
    exact ⟨mem_traces_execute oracle f.body, hp⟩

theorem openWays_ne_nil (nodup : (f.body.walk.map Artifact.id).Nodup)
    (h : ∀ t ∈ traces f.body, Readable arguments t.outcomes) : openWays arguments f.body ≠ [] := by
  classical
  let oracle (i : NodeId) : Bool := ∃ a ∈ f.body.walk, a.id = i ∧ Possible arguments (a, true)
  have ht := mem_traces_execute oracle f.body
  refine List.ne_nil_of_mem (mem_openWays.mpr ⟨ht, (h _ ht).possible fun c hc => ?_⟩)
  obtain ⟨hw, htaken⟩ := mem_outcomes_execute hc
  rw [htaken, decide_eq_true_iff]
  constructor
  · rintro ⟨a, ha, hi, hp⟩
    exact List.inj_on_of_nodup_map nodup ha hw hi ▸ hp
  · exact fun hp => ⟨c.1, hw, rfl, hp⟩

/-- Two open ways part at a branch that is not decided. -/
theorem length_openWays {body : Artifact} (decided : ∀ t ∈ openWays arguments body,
    ∀ c ∈ t.outcomes, ∃ truth, Decided arguments c.1 truth) :
    (openWays arguments body).length ≤ 1 := by
  have parts : (openWays arguments body).Pairwise Trace.Parts :=
    body.pairwise_traces.sublist List.filter_sublist
  have possible : ∀ t ∈ openWays arguments body, ∀ c ∈ t.outcomes, Possible arguments c :=
    fun t ht => (mem_openWays.mp ht).2
  generalize openWays arguments body = ts at decided parts possible
  cases ts with
  | nil => exact Nat.zero_le 1
  | cons t ts =>
    cases ts with
    | nil => exact Nat.le_refl 1
    | cons u ts =>
      exfalso
      obtain ⟨before, branch, rest, rest', ht, hu⟩ := List.rel_of_pairwise_cons parts List.mem_cons_self
      have htaken : (branch, true) ∈ t.outcomes := by simp [ht]
      have hleft : (branch, false) ∈ u.outcomes := by simp [hu]
      obtain ⟨truth, hd⟩ := decided t List.mem_cons_self _ htaken
      have htrue := hd.eq (possible t List.mem_cons_self _ htaken)
      have hfalse := hd.eq (possible u (List.mem_cons_of_mem t List.mem_cons_self) _ hleft)
      exact Bool.noConfusion (htrue.symm.trans hfalse)

/-- The candidates are the executions that choose a possible outcome at every branch they meet, in the
order of the paths, and there is one. Where every condition on them has a truth value there is no other:
it is the execution in which every branch goes by the truth value of its condition. -/
theorem candidates_executions (nodup : (f.body.walk.map Artifact.id).Nodup)
    (current : Current forest f paths) (readable : ∀ p ∈ paths, Readable arguments p.conditions) :
    ∃ cs, candidates arguments paths = .ok cs ∧ cs ≠ [] ∧ cs.Sublist paths ∧
      (∀ p, p ∈ cs.map way ↔ ∃ oracle, p = ofTrace f (execute oracle f.body) ∧
        ∀ c ∈ (execute oracle f.body).outcomes, Possible arguments c) ∧
      ((∀ p ∈ cs, ∀ c ∈ p.conditions, ∃ truth, Decided arguments c.1 truth) →
        ∃ oracle, cs.map way = [ofTrace f (execute oracle f.body)] ∧
          ∀ c ∈ (execute oracle f.body).outcomes, Decided arguments c.1 (oracle c.1.id)) := by
  have hways := current.map_way
  have hne := openWays_ne_nil nodup (forall_outcomes hways readable)
  obtain ⟨cs, hcs, hsub, hmap⟩ := exists_candidates current readable
  refine ⟨cs, hcs, ?_, hsub, fun p => ?_, fun decided => ?_⟩
  · rintro rfl
    exact hne (List.map_eq_nil_iff.mp hmap.symm)
  · rw [hmap, List.mem_map]
    constructor
    · rintro ⟨t, ht, rfl⟩
      obtain ⟨oracle, rfl, hp⟩ := (mem_openWays_iff_execute nodup).mp ht
      exact ⟨oracle, rfl, hp⟩
    · rintro ⟨oracle, rfl, hp⟩
      exact ⟨_, (mem_openWays_iff_execute nodup).mpr ⟨oracle, rfl, hp⟩, rfl⟩
  · replace decided := forall_outcomes hmap
      (P := fun cs => ∀ c ∈ cs, ∃ truth, Decided arguments c.1 truth) decided
    obtain ⟨t, ht⟩ : ∃ t, openWays arguments f.body = [t] := by
      have hle := length_openWays decided
      have hpos := List.length_pos_iff.mpr hne
      exact List.length_eq_one_iff.mp (by omega)
    rw [ht] at hmap decided
    obtain ⟨oracle, rfl, hp⟩ := (mem_openWays_iff_execute nodup).mp (ht ▸ List.mem_singleton_self t)
    refine ⟨oracle, hmap, fun c hc => ?_⟩
    obtain ⟨truth, hd⟩ := decided _ (List.mem_singleton_self _) c hc
    have htruth := hd.eq (hp c hc)
    rwa [htruth, (mem_outcomes_execute hc).2] at hd

theorem Evaluates.mem (h : Evaluates arguments conditions branch) :
    ∃ c ∈ conditions, c.1 = branch := by
  induction h with
  | here => exact ⟨_, List.mem_cons_self, rfl⟩
  | next _ _ ih =>
    obtain ⟨c, hc, he⟩ := ih
    exact ⟨c, List.mem_cons_of_mem _ hc, he⟩

def guardedPaths : List Path := (traces guardedFunction.body).map (ofTrace guardedFunction)

/-- Passed for the parameter of `guarded`, this decides its two conditions. -/
def off : List Artifact := [.literal ⟨99, none⟩ (.bool false)]

theorem ok_of_toOption {α : Type} {x : Except Fault α} {a : α} (h : x.toOption = some a) :
    x = .ok a := by
  cases x with
  | error e => cases h
  | ok b => exact congrArg _ (Option.some.inj h)

theorem readable_guarded : ∀ p ∈ guardedPaths, Readable off p.conditions := by
  have h : ∀ p ∈ guardedPaths, ∀ c ∈ p.conditions,
      (Artifact.conditionValue off (conditionOf c.1)).toOption.isSome := by decide +kernel
  intro p hp branch hb
  obtain ⟨c, hc, rfl⟩ := hb.mem
  obtain ⟨reading, hr⟩ := Option.isSome_iff_exists.mp (h p hp c hc)
  exact ⟨reading, ok_of_toOption hr⟩

/-- Five ways lead through `guarded`, and one of them is left. -/
theorem candidates_executions_guarded :
    guardedPaths.length = 5 ∧ Current guarded.forest guardedFunction guardedPaths ∧
      (∀ p ∈ guardedPaths, Readable off p.conditions) ∧
      ∃ p oracle, candidates off guardedPaths = .ok [p] ∧
        p.way = ofTrace guardedFunction (execute oracle guardedFunction.body) := by
  have current : Current guarded.forest guardedFunction guardedPaths :=
    current_of_unshared sound_guarded.1 holds_guarded unshared_guarded
  refine ⟨by decide +kernel, current, readable_guarded, ?_⟩
  obtain ⟨cs, hcs, -, -, -, hone⟩ := candidates_executions unshared_guarded.nodup current readable_guarded
  have htruth : ∀ p ∈ (candidates off guardedPaths).toOption.getD [], ∀ c ∈ p.conditions,
      ((Artifact.conditionValue off (conditionOf c.1)).toOption.join.bind
        (·.value.truth.toOption)).isSome := by
    decide +kernel
  rw [hcs] at htruth
  have decided : ∀ p ∈ cs, ∀ c ∈ p.conditions, ∃ truth, Decided off c.1 truth := by
    intro p hp c hc
    obtain ⟨truth, ht⟩ := Option.isSome_iff_exists.mp (htruth p hp c hc)
    obtain ⟨o, ho, ht⟩ := Option.bind_eq_some_iff.mp ht
    exact ⟨truth, o, ok_of_toOption (Option.join_eq_some_iff.mp ho), ok_of_toOption ht⟩
  obtain ⟨oracle, h, -⟩ := hone decided
  obtain ⟨p, rfl, hp⟩ := List.map_eq_singleton_iff.mp h
  exact ⟨p, oracle, hcs, hp⟩

end Path

end CallTime

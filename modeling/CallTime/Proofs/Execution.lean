import CallTime.Proofs.Nesting
import CallTime.Proofs.Reference

/-!
Executions of a body, and the paths through it.

An oracle says which way every branch goes, and an execution follows it. Main statement: the paths of a
function are the executions of its body, each of them once, and in the order of their outcomes.
-/

namespace CallTime

namespace Timed

variable {α β : Type}

/-- The computation gives `a` as long as the ticks last, and else stops at the limit. -/
structure Pays (x : Timed α) (a : α) : Prop where
  unbounded : ∀ m, ∃ k, x (.unbounded m) = (.ok a, .unbounded k)
  metered : ∀ limit m, ∃ k, x (.metered limit m) = (.ok a, .metered limit k) ∨
    x (.metered limit m) = (.error (Clock.overrun limit k), .metered limit k)

theorem pays_pure (a : α) : Pays (pure a) a where
  unbounded m := ⟨m, rfl⟩
  metered _ m := ⟨m, .inl rfl⟩

theorem pays_lift (a : α) : Pays (liftM (.ok a : Except Fault α)) a where
  unbounded m := ⟨m, rfl⟩
  metered _ m := ⟨m, .inl rfl⟩

theorem pays_tick {n : Nat} (h : 0 < n) : Pays (tick n) () where
  unbounded m := ⟨m + n, rfl⟩
  metered limit m := by
    have hn : ¬(n : Int) ≤ 0 := by omega
    refine ⟨m + n, ?_⟩
    change Clock.spend (.int n) (.metered limit m) = _ ∨ Clock.spend (.int n) (.metered limit m) = _
    simp only [Clock.spend, Value.toInt, if_neg hn]
    split
    · exact .inr rfl
    · exact .inl rfl

theorem bind_apply (x : Timed α) (f : α → Timed β) (c : Clock) :
    (x >>= f) c = (ExceptT.bindCont f (x c).1 : StateM Clock _) (x c).2 := rfl

theorem pays_bind {x : Timed α} {f : α → Timed β} {a : α} {b : β} (hx : Pays x a)
    (hf : Pays (f a) b) : Pays (x >>= f) b where
  unbounded m := by
    obtain ⟨k, hk⟩ := hx.unbounded m
    rw [bind_apply, hk]
    exact hf.unbounded k
  metered limit m := by
    obtain ⟨k, hk | hk⟩ := hx.metered limit m
    · rw [bind_apply, hk]
      exact hf.metered limit k
    · rw [bind_apply, hk]
      exact ⟨k, .inr rfl⟩

/-- The ticks of `n` branches. -/
def forks : Nat → Timed Unit
  | 0 => pure ()
  | n + 1 => do
    tick 2
    forks n

theorem forks_add (m n : Nat) : forks (m + n) = forks m >>= fun _ => forks n := by
  induction m with
  | zero => rw [Nat.zero_add, forks, pure_bind]
  | succ m ih => rw [Nat.succ_add, forks, forks, ih, bind_assoc]

theorem pays_forks (n : Nat) : Pays (forks n) () := by
  induction n with
  | zero => exact pays_pure ()
  | succ n ih => exact pays_bind (pays_tick (by decide)) ih

/-- The computation spends the ticks of `n` branches and then gives `a`, whatever the clock is. -/
def Spends (n : Nat) (x : Timed α) (a : α) : Prop := x = forks n >>= fun _ => pure a

theorem spends_pure (a : α) : Spends 0 (pure a) a := by rw [Spends, forks, pure_bind]

theorem spends_fork : Spends 1 (tick 2) () := by simp [Spends, forks]

theorem spends_bind {x : Timed α} {f : α → Timed β} {a : α} {b : β} {m n : Nat} (hx : Spends m x a)
    (hf : Spends n (f a) b) : Spends (m + n) (x >>= f) b := by
  rw [Spends] at hx hf ⊢
  simp [hx, hf, forks_add]

/-- The computation gives these ways, at the cost of a branch for each of them but `k`. -/
def Spreads (k : Nat) (x : Timed (List α)) (ways : List α) : Prop :=
  ∃ n, ways.length = n + k ∧ Spends n x ways

theorem spreads_pure (ways : List α) : Spreads ways.length (pure ways) ways :=
  ⟨0, (Nat.zero_add _).symm, spends_pure ways⟩

theorem spends_mapM {f : α → Timed (List β)} {g : α → List β} {as : List α}
    (h : ∀ a ∈ as, Spreads 1 (f a) (g a)) :
    ∃ n, (as.map g).flatten.length = n + as.length ∧ Spends n (as.mapM f) (as.map g) := by
  induction as with
  | nil => exact ⟨0, rfl, spends_pure _⟩
  | cons a as ih =>
    obtain ⟨m, hm, ha⟩ := h a List.mem_cons_self
    obtain ⟨n, hn, has⟩ := ih fun b hb => h b (List.mem_cons_of_mem a hb)
    refine ⟨m + (n + 0), ?_, ?_⟩
    · rw [List.map_cons, List.flatten_cons, List.length_append, hm, hn, List.length_cons]
      omega
    · rw [List.mapM_cons, List.map_cons]
      exact spends_bind ha (spends_bind has (spends_pure _))

theorem Spends.pays {x : Timed α} {a : α} {n : Nat} (h : Spends n x a) : Pays x a := by
  rw [Spends] at h
  rw [h]
  exact pays_bind (pays_forks n) (pays_pure a)

theorem mapM_lift (f : α → Except Fault β) (as : List α) :
    (as.mapM fun a => (liftM (f a) : Timed β)) = liftM (as.mapM f) := by
  induction as with
  | nil => rfl
  | cons a as ih =>
    rw [List.mapM_cons, List.mapM_cons, ih]
    funext c
    cases f a with
    | error e => rfl
    | ok b => cases as.mapM f <;> rfl

end Timed

structure Trace where
  /-- The branches, each with the way it went. -/
  outcomes : List (Artifact × Bool) := []
  emitted : List Artifact := []
  returned : Bool := false

namespace Trace

/-- Goes on with `u` unless `t` has returned. -/
def andThen (t u : Trace) : Trace :=
  if t.returned then t else ⟨t.outcomes ++ u.outcomes, t.emitted ++ u.emitted, u.returned⟩

def deciding (branch : Artifact) (taken : Bool) : Trace :=
  ⟨[(branch, taken)], (Path.conditionOf branch).toList, false⟩

def follows (oracle : NodeId → Bool) (t : Trace) : Bool :=
  t.outcomes.all fun c => oracle c.1.id == c.2

end Trace

namespace Artifact

mutual

/-- Runs a statement: blocks are entered, functions skipped, and at a branch the oracle decides. -/
def execute (oracle : NodeId → Bool) : Artifact → Trace
  | .block _ statements => executeAll oracle statements
  | .function _ _ _ _ _ => {}
  | .branch info condition thenBranch elseBranch =>
    let branch := Artifact.branch info condition thenBranch elseBranch
    if oracle branch.id then (Trace.deciding branch true).andThen (executeOption oracle thenBranch)
    else (Trace.deciding branch false).andThen (executeOption oracle elseBranch)
  | .ret info value => { emitted := [.ret info value], returned := true }
  | a => { emitted := [a] }
termination_by structural a => a

def executeOption (oracle : NodeId → Bool) : Option Artifact → Trace
  | none => {}
  | some a => execute oracle a
termination_by structural a => a

def executeAll (oracle : NodeId → Bool) : List Artifact → Trace
  | [] => {}
  | s :: ss => (execute oracle s).andThen (executeAll oracle ss)
termination_by structural ss => ss

end

mutual

def traces : Artifact → List Trace
  | .block _ statements => tracesAll statements
  | .function _ _ _ _ _ => [{}]
  | .branch info condition thenBranch elseBranch =>
    let branch := Artifact.branch info condition thenBranch elseBranch
    (tracesOption thenBranch).map (Trace.deciding branch true).andThen ++
      (tracesOption elseBranch).map (Trace.deciding branch false).andThen
  | .ret info value => [{ emitted := [.ret info value], returned := true }]
  | a => [{ emitted := [a] }]
termination_by structural a => a

def tracesOption : Option Artifact → List Trace
  | none => [{}]
  | some a => traces a
termination_by structural a => a

def tracesAll : List Artifact → List Trace
  | [] => [{}]
  | s :: ss => (traces s).flatMap fun t => if t.returned then [t] else (tracesAll ss).map t.andThen
termination_by structural ss => ss

end

end Artifact

open Artifact (execute executeOption executeAll traces tracesOption tracesAll walkFrom)

namespace Path

def Partial.extend (p : Partial) (t : Trace) : Partial :=
  ⟨p.conditions ++ t.outcomes, p.artifacts ++ t.emitted, t.returned⟩

/-- The ways on from `p` over the traces, or `p` alone if it is finished. -/
def Partial.onward (p : Partial) (ts : List Trace) : List Partial :=
  if p.finished then [p] else ts.map p.extend

variable {p : Partial} {t u : Trace}

theorem Partial.extend_empty (h : p.finished = false) : p.extend {} = p := by
  obtain ⟨cs, ms, f⟩ := p
  cases h
  simp [Partial.extend]

theorem Partial.extend_emitted (h : p.finished = false) (a : Artifact) :
    p.extend { emitted := [a] } = p.meet a := by
  simp [Partial.extend, Partial.meet, h]

theorem Partial.extend_extend (h : t.returned = false) :
    (p.extend t).extend u = p.extend (t.andThen u) := by
  simp [Partial.extend, Trace.andThen, h]

theorem Partial.extend_comp (h : t.returned = false) :
    (p.extend t).extend = p.extend ∘ t.andThen :=
  funext fun _ => extend_extend h

theorem Partial.extend_deciding (branch : Artifact) (taken : Bool) :
    p.extend (.deciding branch taken) = (p.meetOption (conditionOf branch)).fork branch taken := by
  cases h : conditionOf branch <;>
    simp [Partial.extend, Trace.deciding, Partial.fork, Partial.meetOption, Partial.meet, h]

theorem Partial.onward_onward (p : Partial) (ts us : List Trace) :
    (p.onward ts).flatMap (·.onward us) =
      p.onward (ts.flatMap fun t => if t.returned then [t] else us.map t.andThen) := by
  unfold Partial.onward
  by_cases hp : p.finished
  · simp [hp]
  · simp only [hp, Bool.false_eq_true, ↓reduceIte, List.flatMap_map, List.map_flatMap]
    refine List.flatMap_congr fun t _ => ?_
    by_cases ht : t.returned
    · simp [ht, Partial.extend]
    · have hf : (p.extend t).finished = false := by simpa [Partial.extend] using ht
      have ht : t.returned = false := by simpa using ht
      simp [hf, ht, Partial.extend_extend, Function.comp_def]

open Timed

mutual

theorem spreads_explore (a : Artifact) {p : Partial} (hp : p.finished = false) :
    Spreads 1 (explore a p) ((traces a).map p.extend) := by
  cases a with
  | block info statements =>
    have h := spreads_exploreAll statements [p]
    rwa [List.flatMap_singleton, Partial.onward, if_neg (by simp [hp])] at h
  | function =>
    rw [traces, List.map_singleton, Partial.extend_empty hp]
    exact spreads_pure [p]
  | branch info condition thenBranch elseBranch =>
    obtain ⟨m, hm, ht⟩ := spreads_exploreOption thenBranch (p := p.extend (.deciding
      (.branch info condition thenBranch elseBranch) true)) rfl
    obtain ⟨n, hn, he⟩ := spreads_exploreOption elseBranch (p := p.extend (.deciding
      (.branch info condition thenBranch elseBranch) false)) rfl
    rw [Partial.extend_comp rfl, Partial.extend_deciding] at ht he
    rw [List.length_map] at hm hn
    refine ⟨1 + (m + (n + 0)), ?_, ?_⟩
    · simp only [traces, List.map_append, List.length_append, List.length_map, hm, hn]
      omega
    · rw [traces, List.map_append, List.map_map, List.map_map]
      exact spends_bind spends_fork (spends_bind ht (spends_bind he (spends_pure _)))
  | ret info value =>
    have h : p.extend { emitted := [.ret info value], returned := true } =
        { p.meet (.ret info value) with finished := true } := by
      simp [Partial.extend, Partial.meet]
    rw [traces, List.map_singleton, h]
    exact spreads_pure [_]
  | _ =>
    change Spreads 1 _ [p.extend { emitted := [_] }]
    rw [Partial.extend_emitted hp]
    exact spreads_pure [_]
termination_by structural a

theorem spreads_exploreOption (a : Option Artifact) {p : Partial} (hp : p.finished = false) :
    Spreads 1 (exploreOption a p) ((tracesOption a).map p.extend) := by
  cases a with
  | none =>
    rw [tracesOption, List.map_singleton, Partial.extend_empty hp]
    exact spreads_pure [p]
  | some a => exact spreads_explore a hp
termination_by structural a

theorem spreads_exploreAll (ss : List Artifact) (live : List Partial) :
    Spreads live.length (exploreAll ss live) (live.flatMap (·.onward (tracesAll ss))) := by
  cases ss with
  | nil =>
    have h : ∀ p ∈ live, Partial.onward p (tracesAll []) = [p] := by
      intro p _
      rw [Partial.onward, tracesAll]
      split
      · rfl
      · next h => rw [List.map_singleton, Partial.extend_empty (by simpa using h)]
    rw [List.flatMap_congr h, List.flatMap_singleton']
    exact spreads_pure live
  | cons s ss =>
    have hs : ∀ p ∈ live, Spreads 1 (if p.finished then return [p] else explore s p)
        (p.onward (traces s)) := by
      intro p _
      rw [Partial.onward]
      split
      · exact spreads_pure [p]
      · next h => exact spreads_explore s (by simpa using h)
    obtain ⟨m, hm, hnext⟩ := spends_mapM hs
    obtain ⟨n, hn, hrest⟩ := spreads_exploreAll ss (live.map (·.onward (traces s))).flatten
    rw [tracesAll]
    simp only [← Partial.onward_onward, ← List.flatMap_assoc]
    rw [← List.flatMap_def] at hm hn hrest
    refine ⟨m + n, by omega, spends_bind (f := fun next => exploreAll ss next.flatten) hnext ?_⟩
    rwa [← List.flatMap_def]
termination_by structural ss

end

end Path

namespace Trace

variable {t u : Trace} {oracle : NodeId → Bool}

theorem andThen_of_returned (h : t.returned = true) (u : Trace) : t.andThen u = t := by
  rw [andThen, if_pos h]

theorem outcomes_andThen (h : t.returned = false) (u : Trace) :
    (t.andThen u).outcomes = t.outcomes ++ u.outcomes := by
  simp [andThen, h]

theorem follows_deciding (oracle : NodeId → Bool) (branch : Artifact) (taken : Bool) :
    (deciding branch taken).follows oracle = (oracle branch.id == taken) := by
  simp [follows, deciding]

theorem filter_map_andThen (h : t.returned = false) (us : List Trace) :
    (us.map t.andThen).filter (follows oracle) =
      if t.follows oracle then (us.filter (follows oracle)).map t.andThen else [] := by
  have hf (u : Trace) : (t.andThen u).follows oracle = (t.follows oracle && u.follows oracle) := by
    rw [follows, outcomes_andThen h, List.all_append, follows, follows]
  rw [List.filter_map, Function.comp_def]
  by_cases ht : t.follows oracle <;> simp [hf, ht]

end Trace

namespace Artifact

open Trace

mutual

/-- Of the ways through a statement an oracle is on one, the one that it makes an execution follow. -/
theorem filter_traces (oracle : NodeId → Bool) (a : Artifact) :
    (traces a).filter (follows oracle) = [execute oracle a] := by
  cases a with
  | block info statements => exact filter_tracesAll oracle statements
  | branch info condition thenBranch elseBranch =>
    rw [traces, List.filter_append, filter_map_andThen rfl, filter_map_andThen rfl, follows_deciding,
      follows_deciding, filter_tracesOption oracle thenBranch, filter_tracesOption oracle elseBranch,
      execute]
    cases oracle (Artifact.branch info condition thenBranch elseBranch).id <;> rfl
  | _ => rfl
termination_by structural a

theorem filter_tracesOption (oracle : NodeId → Bool) (a : Option Artifact) :
    (tracesOption a).filter (follows oracle) = [executeOption oracle a] := by
  cases a with
  | none => rfl
  | some a => exact filter_traces oracle a
termination_by structural a

theorem filter_tracesAll (oracle : NodeId → Bool) (ss : List Artifact) :
    (tracesAll ss).filter (follows oracle) = [executeAll oracle ss] := by
  cases ss with
  | nil => rfl
  | cons s ss =>
    have onward (t : Trace) : (if t.returned then [t] else (tracesAll ss).map t.andThen).filter
        (follows oracle) = if t.follows oracle then [t.andThen (executeAll oracle ss)] else [] := by
      split
      · next h => rw [List.filter_singleton, andThen_of_returned h, cond_eq_ite]
      · next h =>
        rw [filter_map_andThen (by simpa using h), filter_tracesAll oracle ss, List.map_singleton]
    calc (tracesAll (s :: ss)).filter (follows oracle)
        = (traces s).flatMap fun t =>
            if t.follows oracle then [t.andThen (executeAll oracle ss)] else [] := by
          rw [tracesAll, List.filter_flatMap]
          exact List.flatMap_congr fun t _ => onward t
      _ = ((traces s).filter (follows oracle)).map (·.andThen (executeAll oracle ss)) := by
          induction traces s with
          | nil => rfl
          | cons t ts ih => by_cases h : t.follows oracle <;> simp [h, ih]
      _ = [executeAll oracle (s :: ss)] := by
          rw [filter_traces oracle s, List.map_singleton, executeAll]
termination_by structural ss

end

/-- A way on which no branch is met twice is the execution of the oracle that says what it did. -/
theorem exists_eq_execute {a : Artifact} {t : Trace} (ht : t ∈ traces a)
    (hn : (t.outcomes.map fun c => c.1.id).Nodup) : ∃ oracle, t = execute oracle a := by
  let oracle (i : NodeId) : Bool := t.outcomes.any fun c => c.1.id == i && c.2
  have hf : t.follows oracle := by
    rw [follows, List.all_eq_true]
    intro c hc
    rw [beq_iff_eq, Bool.eq_iff_iff, List.any_eq_true]
    constructor
    · rintro ⟨d, hd, h⟩
      obtain ⟨hid, htaken⟩ := Bool.and_eq_true_iff.mp h
      exact List.inj_on_of_nodup_map hn hd hc (beq_iff_eq.mp hid) ▸ htaken
    · exact fun h => ⟨c, hc, by simp [h]⟩
  have hm : t ∈ (traces a).filter (follows oracle) := List.mem_filter.mpr ⟨ht, hf⟩
  rw [filter_traces] at hm
  exact ⟨oracle, List.mem_singleton.mp hm⟩

end Artifact

namespace Trace

def Parts (t u : Trace) : Prop :=
  ∃ before branch rest rest', t.outcomes = before ++ (branch, true) :: rest ∧
    u.outcomes = before ++ (branch, false) :: rest'

variable {t u : Trace}

theorem Parts.andThen_left (h : t.Parts u) (v : Trace) : (t.andThen v).Parts u := by
  obtain ⟨before, branch, rest, rest', ht, hu⟩ := h
  unfold andThen
  split
  · exact ⟨before, branch, rest, rest', ht, hu⟩
  · exact ⟨before, branch, rest ++ v.outcomes, rest', by simp [ht], hu⟩

theorem Parts.andThen_right (h : t.Parts u) (v : Trace) : t.Parts (u.andThen v) := by
  obtain ⟨before, branch, rest, rest', ht, hu⟩ := h
  unfold andThen
  split
  · exact ⟨before, branch, rest, rest', ht, hu⟩
  · exact ⟨before, branch, rest, rest' ++ v.outcomes, ht, by simp [hu]⟩

theorem Parts.after (h : t.Parts u) {s : Trace} (hs : s.returned = false) :
    (s.andThen t).Parts (s.andThen u) := by
  obtain ⟨before, branch, rest, rest', ht, hu⟩ := h
  refine ⟨s.outcomes ++ before, branch, rest, rest', ?_, ?_⟩
  · rw [outcomes_andThen hs, ht, List.append_assoc]
  · rw [outcomes_andThen hs, hu, List.append_assoc]

theorem pairwise_map_andThen (ht : t.returned = false) {us : List Trace} (h : us.Pairwise Parts) :
    (us.map t.andThen).Pairwise Parts :=
  h.map _ fun _ _ h => h.after ht

/-- Of two ways that part, the first has the greater outcomes: where they differ, it took the branch. -/
theorem Parts.lex (h : t.Parts u) :
    List.Lex (· > ·) (t.outcomes.map Prod.snd) (u.outcomes.map Prod.snd) := by
  obtain ⟨before, branch, rest, rest', ht, hu⟩ := h
  rw [ht, hu]
  clear ht hu
  induction before with
  | nil => exact .rel (by decide : true > false)
  | cons c before ih => exact .cons ih

end Trace

namespace Artifact

open Trace

mutual

theorem pairwise_traces (a : Artifact) : (traces a).Pairwise Parts := by
  cases a with
  | block info statements => exact pairwise_tracesAll statements
  | branch info condition thenBranch elseBranch =>
    rw [traces, List.pairwise_append]
    refine ⟨pairwise_map_andThen rfl (pairwise_tracesOption thenBranch),
      pairwise_map_andThen rfl (pairwise_tracesOption elseBranch), fun t ht u hu => ?_⟩
    obtain ⟨t', -, rfl⟩ := List.mem_map.mp ht
    obtain ⟨u', -, rfl⟩ := List.mem_map.mp hu
    exact ⟨[], _, t'.outcomes, u'.outcomes, rfl, rfl⟩
  | _ => exact List.pairwise_singleton _ _
termination_by structural a

theorem pairwise_tracesOption (a : Option Artifact) : (tracesOption a).Pairwise Parts := by
  cases a with
  | none => exact List.pairwise_singleton _ _
  | some a => exact pairwise_traces a
termination_by structural a

theorem pairwise_tracesAll (ss : List Artifact) : (tracesAll ss).Pairwise Parts := by
  cases ss with
  | nil => exact List.pairwise_singleton _ _
  | cons s ss =>
    have hon {t v : Trace} (h : v ∈ if t.returned then [t] else (tracesAll ss).map t.andThen) :
        ∃ u, v = t.andThen u := by
      split at h
      · next ht => exact ⟨{}, by rw [List.mem_singleton.mp h, andThen_of_returned ht]⟩
      · obtain ⟨u, -, rfl⟩ := List.mem_map.mp h
        exact ⟨u, rfl⟩
    rw [tracesAll, List.pairwise_flatMap]
    constructor
    · intro t _
      split
      · exact List.pairwise_singleton _ _
      · next ht => exact pairwise_map_andThen (by simpa using ht) (pairwise_tracesAll ss)
    · refine (pairwise_traces s).imp fun h v hv w hw => ?_
      obtain ⟨v, rfl⟩ := hon hv
      obtain ⟨w, rfl⟩ := hon hw
      exact (h.andThen_left v).andThen_right w
termination_by structural ss

end

end Artifact

namespace Artifact

def expressions : Artifact → List Artifact
  | .block _ _ => []
  | .branch _ condition _ _ => condition.toList
  | .function _ _ _ _ _ => []
  | a => a.children

/-- Everything on the trace lies among the nodes or below them, and in no function below. What it emits
are expressions, and statements that hold nothing but expressions. -/
structure Stays (as : List Artifact) (t : Trace) : Prop where
  outcomes : ∀ c ∈ t.outcomes, Reach as c.1
  emitted : ∀ m ∈ t.emitted, Reach as m
  parts : ∀ m ∈ t.emitted, (∃ b, Reach as b ∧ m ∈ b.expressions) ∨
    m.isFunction = false ∧ m.expressions = m.children

variable {as bs : List Artifact} {t u : Trace}

theorem stays_empty (as : List Artifact) : Stays as {} :=
  ⟨List.forall_mem_nil _, List.forall_mem_nil _, List.forall_mem_nil _⟩

theorem stays_emitted {a : Artifact} (h : a ∈ as) (hf : a.isFunction = false)
    (he : a.expressions = a.children) (returned : Bool) : Stays as ⟨[], [a], returned⟩ :=
  ⟨List.forall_mem_nil _, fun _ hm => List.mem_singleton.mp hm ▸ .here h,
    fun _ hm => List.mem_singleton.mp hm ▸ .inr ⟨hf, he⟩⟩

theorem Stays.mono (h : Stays as t) (hs : ∀ b ∈ as, Reach bs b) : Stays bs t where
  outcomes c hc := (h.outcomes c hc).mono hs
  emitted m hm := (h.emitted m hm).mono hs
  parts m hm := by
    obtain ⟨b, hb, he⟩ | hm := h.parts m hm
    · exact .inl ⟨b, hb.mono hs, he⟩
    · exact .inr hm

theorem Stays.andThen (ht : Stays as t) (hu : Stays as u) : Stays as (t.andThen u) := by
  unfold Trace.andThen
  split
  · exact ht
  · exact ⟨fun c hc => (List.mem_append.mp hc).elim (ht.outcomes c) (hu.outcomes c),
      fun m hm => (List.mem_append.mp hm).elim (ht.emitted m) (hu.emitted m),
      fun m hm => (List.mem_append.mp hm).elim (ht.parts m) (hu.parts m)⟩

theorem reach_children {a b : Artifact} (ha : a ∈ as) (hf : a.isFunction = false)
    (hb : b ∈ a.children) : Reach as b :=
  .child (.here ha) hf hb

mutual

theorem stays_of_mem_traces (a : Artifact) : ∀ t ∈ traces a, Stays [a] t := by
  have ha : a ∈ [a] := List.mem_singleton_self a
  cases a with
  | block info statements =>
    exact fun t ht => (stays_of_mem_tracesAll statements t ht).mono fun b hb => reach_children ha rfl hb
  | branch info condition thenBranch elseBranch =>
    have deciding (taken : Bool) : Stays [.branch info condition thenBranch elseBranch]
        (.deciding (.branch info condition thenBranch elseBranch) taken) :=
      ⟨fun c hc => List.mem_singleton.mp hc ▸ .here ha,
        fun m hm => reach_children ha rfl (List.mem_append_left _ (List.mem_append_left _ hm)),
        fun m hm => .inl ⟨_, .here ha, hm⟩⟩
    intro t ht
    obtain ht | ht := List.mem_append.mp ht
    · obtain ⟨u, hu, rfl⟩ := List.mem_map.mp ht
      refine (deciding true).andThen ((stays_of_mem_tracesOption thenBranch u hu).mono fun b hb => ?_)
      exact reach_children ha rfl (List.mem_append_left _ (List.mem_append_right _ hb))
    · obtain ⟨u, hu, rfl⟩ := List.mem_map.mp ht
      refine (deciding false).andThen ((stays_of_mem_tracesOption elseBranch u hu).mono fun b hb => ?_)
      exact reach_children ha rfl (List.mem_append_right _ hb)
  | function =>
    exact fun t ht => List.mem_singleton.mp ht ▸ stays_empty _
  | _ =>
    exact fun t ht => List.mem_singleton.mp ht ▸ stays_emitted ha rfl rfl _
termination_by structural a

theorem stays_of_mem_tracesOption (a : Option Artifact) : ∀ t ∈ tracesOption a, Stays a.toList t := by
  cases a with
  | none => exact fun t ht => List.mem_singleton.mp ht ▸ stays_empty _
  | some a => exact stays_of_mem_traces a
termination_by structural a

theorem stays_of_mem_tracesAll (ss : List Artifact) : ∀ t ∈ tracesAll ss, Stays ss t := by
  cases ss with
  | nil => exact fun t ht => List.mem_singleton.mp ht ▸ stays_empty _
  | cons s ss =>
    intro t ht
    rw [tracesAll] at ht
    obtain ⟨u, hu, ht⟩ := List.mem_flatMap.mp ht
    have hs : Stays (s :: ss) u := (stays_of_mem_traces s u hu).mono fun b hb =>
      .here (List.mem_singleton.mp hb ▸ List.mem_cons_self)
    split at ht
    · exact List.mem_singleton.mp ht ▸ hs
    · obtain ⟨v, hv, rfl⟩ := List.mem_map.mp ht
      exact hs.andThen ((stays_of_mem_tracesAll ss v hv).mono fun b hb =>
        .here (List.mem_cons_of_mem s hb))
termination_by structural ss

end

theorem outcomes_sublist_walk {a : Artifact} (ht : t ∈ traces a) :
    (t.outcomes.map Prod.fst).Sublist a.walk := by
  obtain ⟨qs, ⟨k, hk⟩, hq⟩ := Path.explores a {}
  obtain ⟨n, -, hn⟩ := Path.spreads_explore a (p := {}) rfl
  obtain ⟨l, hl⟩ := hn.pays.unbounded 0
  obtain rfl : qs = (traces a).map (Path.Partial.extend {}) :=
    Except.ok.inj (congrArg Prod.fst ((hk 0).symm.trans hl))
  obtain ⟨⟨cs, hc, hcs⟩, -⟩ := hq _ (List.mem_map_of_mem ht)
  have : t.outcomes = cs := hc
  exact this ▸ hcs

end Artifact

/-- No node of the body is shared: the ids are different, and every node knows its parent. -/
structure Forest.Unshared (forest : Forest) (f : Function) : Prop where
  nodup : (f.body.walk.map Artifact.id).Nodup
  root : forest.parent? f.body.id = some f.id
  parent : ∀ a ∈ f.body.walk, ∀ c ∈ a.children, forest.parent? c.id = some a.id

theorem Session.functions_start (drafts : List Draft) (durations : Durations) :
    (start drafts durations).forest.functions.values = (start drafts durations).functions := rfl

namespace Path

def ofTrace (f : Function) (t : Trace) : Path :=
  { function := f, conditions := t.outcomes, artifacts := t.emitted }

def follows (oracle : NodeId → Bool) (p : Path) : Bool :=
  p.conditions.all fun c => oracle c.1.id == c.2

open Timed

variable {forest : Forest} {f : Function}

theorem nodup_outcomes (tree : forest.Unshared f) {t : Trace} (ht : t ∈ traces f.body) :
    (t.outcomes.map fun c => c.1.id).Nodup := by
  have h := tree.nodup.sublist ((Artifact.outcomes_sublist_walk ht).map Artifact.id)
  rwa [List.map_map] at h

/-- Building the paths is to spend the ticks of a branch for each way through but one, and then to check
every way through. -/
theorem enumerate_eq (forest : Forest) (f : Function) :
    ∃ n, (traces f.body).length = n + 1 ∧ enumerate forest f = forks n >>= fun _ =>
      liftM ((traces f.body).mapM fun t => make forest f t.outcomes t.emitted) := by
  obtain ⟨n, hlength, hn⟩ := spreads_explore f.body (p := {}) rfl
  rw [Spends] at hn
  rw [List.length_map] at hlength
  refine ⟨n, hlength, ?_⟩
  rw [enumerate, hn, bind_assoc]
  simp only [pure_bind]
  rw [mapM_lift, List.mapM_map]
  rfl

theorem mapM_make_of_enumerate {c c' : Clock} {paths : List Path}
    (h : enumerate forest f c = (.ok paths, c')) :
    (traces f.body).mapM (fun t => make forest f t.outcomes t.emitted) = .ok paths := by
  obtain ⟨n, -, hn⟩ := enumerate_eq forest f
  rw [hn, bind_apply] at h
  rcases hf : forks n c with ⟨e | ⟨⟩, c''⟩ <;> rw [hf] at h
  · cases h
  · exact congrArg Prod.fst h

theorem make_eq {t : Trace} {p : Path} (h : make forest f t.outcomes t.emitted = .ok p) :
    p = ofTrace f t := by
  obtain ⟨_, -, h⟩ := ok_of_bind h
  exact (Except.ok.inj h).symm

theorem eq_of_enumerate {c c' : Clock} {paths : List Path}
    (h : enumerate forest f c = (.ok paths, c')) : paths = (traces f.body).map (ofTrace f) := by
  replace h := forall₂_of_mapM (mapM_make_of_enumerate h)
  generalize traces f.body = ts at h
  induction h with
  | nil => rfl
  | cons hp _ ih => rw [List.map_cons, ← ih, make_eq hp]

theorem bare_of_enumerate {c c' : Clock} {paths : List Path}
    (h : enumerate forest f c = (.ok paths, c')) : ∀ p ∈ paths, p.data = {} := by
  rw [eq_of_enumerate h]
  exact List.forall_mem_map.mpr fun _ _ => rfl

/-- Where functions are among the statements only, everything on the paths of a function belongs to it. -/
theorem owns_of_enumerate (placed : ∀ a ∈ f.artifact.walk, ∀ e ∈ a.expressions, ∀ b ∈ e.walk,
      b.isFunction = false) {c c' : Clock} {paths : List Path}
    (h : enumerate forest f c = (.ok paths, c')) :
    ∀ p ∈ paths, ∀ a ∈ p.artifacts.flatMap Artifact.walk, f.Owns a := by
  have howns : ∀ t ∈ traces f.body, ∀ a ∈ t.emitted.flatMap Artifact.walk, f.Owns a := by
    intro t ht a ha
    obtain ⟨m, hm, ha⟩ := List.mem_flatMap.mp ha
    have hbody : ∀ b, Artifact.Reach [f.body] b → f.Owns b := fun b hb => hb.mono fun c hc =>
      .here (List.mem_append_right _ hc)
    have hstays := Artifact.stays_of_mem_traces f.body t ht
    have hflat : ∀ b ∈ m.walk, b.isFunction = false := by
      obtain ⟨b, hb, he⟩ | ⟨hf, he⟩ := hstays.parts m hm
      · exact placed b (hbody b hb).mem_walk m he
      · intro b hb
        rw [Artifact.walk_eq, List.mem_cons] at hb
        obtain rfl | hb := hb
        · exact hf
        · rw [Artifact.walkFrom_eq_flatMap, ← he] at hb
          obtain ⟨e, hem, hb⟩ := List.mem_flatMap.mp hb
          exact placed m (hbody m (hstays.emitted m hm)).mem_walk e hem b hb
    exact (hbody m (hstays.emitted m hm)).walk hflat a ha
  rw [eq_of_enumerate h]
  exact List.forall_mem_map.mpr howns

theorem mapM_make (sound : forest.Sound) (held : forest.Holds f.artifact)
    (tree : forest.Unshared f) :
    (traces f.body).mapM (fun t => make forest f t.outcomes t.emitted) =
      .ok ((traces f.body).map (ofTrace f)) := by
  refine mapM_eq_ok fun t ht => ?_
  have henc : ∀ c ∈ t.outcomes, forest.enclosing? c.1 = some f := by
    refine fun c hc => forest.enclosing?_of_reach sound held ?_ ?_
      ((Artifact.stays_of_mem_traces f.body t ht).outcomes c hc)
    · intro b hb
      obtain rfl := List.mem_singleton.mp hb
      exact ⟨List.mem_append_right _ (List.mem_singleton_self _), tree.root⟩
    · exact fun b hb => tree.parent b hb.mem_walkFrom
  have hok := check_eq_ok t.outcomes henc (nodup_outcomes tree ht) []
    fun _ _ _ h => absurd h List.not_mem_nil
  rw [make, hok]
  rfl

theorem pays_enumerate (sound : forest.Sound) (held : forest.Holds f.artifact)
    (tree : forest.Unshared f) :
    Timed.Pays (enumerate forest f) ((traces f.body).map (ofTrace f)) := by
  obtain ⟨n, -, hn⟩ := enumerate_eq forest f
  rw [hn, mapM_make sound held tree]
  exact pays_bind (pays_forks n) (pays_lift _)

/-- The paths of a function are the executions of its body. For every oracle there is one path on which
all branches go as it says, and it records what the execution meets; every path comes from some oracle;
and the paths are in the order of their outcomes, a branch taken before the branch not taken. -/
theorem enumerate_executions (sound : forest.Sound) (held : forest.Holds f.artifact)
    (tree : forest.Unshared f) (m : Int) :
    ∃ paths k, enumerate forest f (.unbounded m) = (.ok paths, .unbounded k) ∧
      (∀ oracle, paths.filter (follows oracle) = [ofTrace f (execute oracle f.body)]) ∧
      (∀ p ∈ paths, ∃ oracle, p = ofTrace f (execute oracle f.body)) ∧
      paths.Pairwise fun p q =>
        List.Lex (· > ·) (p.conditions.map Prod.snd) (q.conditions.map Prod.snd) := by
  obtain ⟨k, hk⟩ := (pays_enumerate sound held tree).unbounded m
  refine ⟨_, k, hk, fun oracle => ?_, fun p hp => ?_, ?_⟩
  · have h := f.body.filter_traces oracle
    rw [List.filter_map]
    exact congrArg (List.map (ofTrace f)) h
  · obtain ⟨t, ht, rfl⟩ := List.mem_map.mp hp
    obtain ⟨oracle, rfl⟩ := Artifact.exists_eq_execute ht (nodup_outcomes tree ht)
    exact ⟨oracle, rfl⟩
  · exact f.body.pairwise_traces.map _ fun _ _ h => h.lex

/-- It may return early, and has a branch without condition, one without a then-branch, a block and a
function inside. -/
def guarded : Session :=
  let x : Draft := .reference none "x" (some 0)
  .start [.defining "guarded" [x] [
    .branch none (some x)
      (some (.block none [.branch none none (some (.ret none none)) none, .calling "one" []]))
      (some (.block none [.calling "two" []])),
    .function none "helper" "helper" [] (.block none [.branch none (some x) none none]) none,
    .branch none (some (.binary none "not" (some x) none)) none (some (.ret none (some x))),
    .calling "three" []]] {}

theorem functions_guarded : guarded.functions ≠ [] :=
  List.isEmpty_eq_false_iff.mp (by decide +kernel)

def guardedFunction : Function := guarded.functions.head functions_guarded

theorem sound_guarded : guarded.forest.Sound ∧ guarded.forest.functions.values = guarded.functions := by
  rw [guarded]
  exact ⟨(Session.sound_start _ _).1, Session.functions_start _ _⟩

theorem holds_guarded : guarded.forest.Holds guardedFunction.artifact :=
  sound_guarded.1.table _ (sound_guarded.2 ▸ List.head_mem functions_guarded)

theorem unshared_guarded : guarded.forest.Unshared guardedFunction where
  nodup := by decide +kernel
  root := by decide +kernel
  parent := by decide +kernel

theorem enumerate_executions_guarded :
    guarded.forest.Unshared guardedFunction ∧
      ∃ paths k, enumerate guarded.forest guardedFunction (.unbounded 0) = (.ok paths, .unbounded k) ∧
        (∀ oracle, paths.filter (follows oracle) =
          [ofTrace guardedFunction (execute oracle guardedFunction.body)]) ∧
        (∀ p ∈ paths, ∃ oracle, p = ofTrace guardedFunction (execute oracle guardedFunction.body)) ∧
        paths.Pairwise fun p q =>
          List.Lex (· > ·) (p.conditions.map Prod.snd) (q.conditions.map Prod.snd) :=
  ⟨unshared_guarded,
    enumerate_executions sound_guarded.1 holds_guarded unshared_guarded 0⟩

end Path

end CallTime

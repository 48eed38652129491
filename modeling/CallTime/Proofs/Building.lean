import Mathlib
import CallTime.Proofs.Budget

/-!
Building the paths of a function.

A body may share nodes, and a node that is shared belongs to whoever took it last. Main statements: the
paths of a function cannot be built just if some execution of its body meets a branch twice, or a branch
that belongs to another function; and building the paths of a body that shares nothing costs two ticks for
every path but the first.
-/

namespace CallTime

namespace Trace

theorem empty_andThen (t : Trace) : ({} : Trace).andThen t = t := rfl

theorem andThen_empty (t : Trace) : t.andThen {} = t := by
  rcases t with ⟨outcomes, emitted, returned⟩
  cases returned <;> simp [andThen]

theorem andThen_assoc (t u v : Trace) : (t.andThen u).andThen v = t.andThen (u.andThen v) := by
  by_cases ht : t.returned
  · rw [andThen_of_returned ht, andThen_of_returned ht, andThen_of_returned ht]
  · by_cases hu : u.returned <;> simp [andThen, ht, hu]

end Trace

namespace Artifact

variable {a : Artifact} {as bs ss : List Artifact} {t : Trace}

theorem exists_mem_tracesAll (ss : List Artifact) : ∃ t, t ∈ tracesAll ss := by
  have h := filter_tracesAll (fun _ => true) ss
  exact ⟨_, List.mem_of_mem_filter (h ▸ List.mem_singleton_self _)⟩

theorem mem_tracesAll_cons :
    t ∈ tracesAll (a :: ss) ↔ ∃ u ∈ traces a, ∃ v ∈ tracesAll ss, u.andThen v = t := by
  rw [tracesAll, List.mem_flatMap]
  refine exists_congr fun u => and_congr_right fun _ => ?_
  split
  · next hr =>
    -- a trace that has returned does not go on, but there is a way to go on
    obtain ⟨w, hw⟩ := exists_mem_tracesAll ss
    rw [List.mem_singleton]
    constructor
    · rintro rfl
      exact ⟨w, hw, Trace.andThen_of_returned hr w⟩
    · rintro ⟨v, -, rfl⟩
      exact Trace.andThen_of_returned hr v
  · exact List.mem_map

theorem mem_tracesAll_append :
    t ∈ tracesAll (as ++ bs) ↔ ∃ u ∈ tracesAll as, ∃ v ∈ tracesAll bs, u.andThen v = t := by
  induction as generalizing t with
  | nil => simp [tracesAll, Trace.empty_andThen]
  | cons a as ih =>
    rw [List.cons_append, mem_tracesAll_cons]
    constructor
    · rintro ⟨u, hu, w', hw', rfl⟩
      obtain ⟨w, hw, v, hv, rfl⟩ := ih.mp hw'
      refine ⟨u.andThen w, mem_tracesAll_cons.mpr ⟨u, hu, w, hw, rfl⟩, v, hv, ?_⟩
      exact Trace.andThen_assoc u w v
    · rintro ⟨w', hw', v, hv, rfl⟩
      obtain ⟨u, hu, w, hw, rfl⟩ := mem_tracesAll_cons.mp hw'
      refine ⟨u, hu, w.andThen v, ih.mpr ⟨w, hw, v, hv, rfl⟩, ?_⟩
      exact (Trace.andThen_assoc u w v).symm

theorem mem_tracesOption {a : Option Artifact} : t ∈ tracesOption a ↔ t ∈ tracesAll a.toList := by
  cases a with
  | none => exact Iff.rfl
  | some a =>
    rw [Option.toList_some, mem_tracesAll_cons]
    simp [tracesAll, tracesOption, Trace.andThen_empty]

end Artifact

namespace Artifact

def isPlain : Artifact → Bool
  | .reference _ _ _ | .literal _ _ _ | .binary _ _ _ _ | .call _ _ _ _ => true
  | _ => false

/-- An execution of the statements that are still to be done. Every time it comes to a branch it goes
either way, whatever it did there before. It is known by the branches it meets, each with its outcome. -/
inductive Passes : List Artifact → List (Artifact × Bool) → Prop
  | done : Passes [] []
  | plain {a : Artifact} {rest : List Artifact} {cs : List (Artifact × Bool)} (ha : a.isPlain = true)
      (h : Passes rest cs) : Passes (a :: rest) cs
  | function {info : Info} {name qualified : String} {parameters rest : List Artifact}
      {body : Artifact} {cs : List (Artifact × Bool)} (h : Passes rest cs) :
      Passes (.function info name qualified parameters body :: rest) cs
  | block {info : Info} {statements rest : List Artifact} {cs : List (Artifact × Bool)}
      (h : Passes (statements ++ rest) cs) : Passes (.block info statements :: rest) cs
  | branch {info : Info} {condition thenBranch elseBranch : Option Artifact} {rest : List Artifact}
      {cs : List (Artifact × Bool)} (taken : Bool)
      (h : Passes ((if taken then thenBranch else elseBranch).toList ++ rest) cs) :
      Passes (.branch info condition thenBranch elseBranch :: rest)
        ((.branch info condition thenBranch elseBranch, taken) :: cs)
  | ret {info : Info} {value : Option Artifact} {rest : List Artifact} :
      Passes (.ret info value :: rest) []

/-- After the statements of a trace comes what is done next, unless the trace has returned. -/
def Leads (as : List Artifact) (t : Trace) : Prop :=
  ∀ rest cs, (if t.returned then cs = [] else Passes rest cs) → Passes (as ++ rest) (t.outcomes ++ cs)

variable {as bs : List Artifact} {t u : Trace}

theorem leads_empty : Leads [] {} := fun _ _ h => h

theorem Leads.andThen (ht : Leads as t) (hu : Leads bs u) : Leads (as ++ bs) (t.andThen u) := by
  intro rest cs h
  rw [List.append_assoc]
  by_cases hr : t.returned = true
  · rw [Trace.andThen_of_returned hr] at h ⊢
    refine ht (bs ++ rest) cs ?_
    rwa [if_pos hr] at h ⊢
  · have ha : t.andThen u = ⟨t.outcomes ++ u.outcomes, t.emitted ++ u.emitted, u.returned⟩ := if_neg hr
    rw [ha] at h ⊢
    have hnext : Passes (bs ++ rest) (u.outcomes ++ cs) := hu rest cs h
    change Passes (as ++ (bs ++ rest)) (t.outcomes ++ u.outcomes ++ cs)
    rw [List.append_assoc]
    exact ht (bs ++ rest) (u.outcomes ++ cs) (by rwa [if_neg hr])

mutual

theorem leads_of_mem_traces (a : Artifact) : ∀ t ∈ traces a, Leads [a] t := by
  cases a with
  | block info statements =>
    intro t ht rest cs h
    exact .block (leads_of_mem_tracesAll statements t ht rest cs h)
  | branch info condition thenBranch elseBranch =>
    intro t ht rest cs h
    obtain ht | ht := List.mem_append.mp ht
    · obtain ⟨u, hu, rfl⟩ := List.mem_map.mp ht
      exact .branch true (leads_of_mem_tracesOption thenBranch u hu rest cs h)
    · obtain ⟨u, hu, rfl⟩ := List.mem_map.mp ht
      exact .branch false (leads_of_mem_tracesOption elseBranch u hu rest cs h)
  | function =>
    intro t ht rest cs h
    obtain rfl := List.mem_singleton.mp ht
    exact .function h
  | ret info value =>
    intro t ht rest cs h
    obtain rfl := List.mem_singleton.mp ht
    obtain rfl : cs = [] := h
    exact .ret
  | _ =>
    intro t ht rest cs h
    obtain rfl := List.mem_singleton.mp ht
    exact .plain rfl h
termination_by structural a

theorem leads_of_mem_tracesOption (a : Option Artifact) : ∀ t ∈ tracesOption a, Leads a.toList t := by
  cases a with
  | none => exact fun t ht => List.mem_singleton.mp ht ▸ leads_empty
  | some a => exact leads_of_mem_traces a
termination_by structural a

theorem leads_of_mem_tracesAll (ss : List Artifact) : ∀ t ∈ tracesAll ss, Leads ss t := by
  cases ss with
  | nil => exact fun t ht => List.mem_singleton.mp ht ▸ leads_empty
  | cons s ss =>
    intro t ht
    obtain ⟨u, hu, v, hv, rfl⟩ := mem_tracesAll_cons.mp ht
    exact (leads_of_mem_traces s u hu).andThen (leads_of_mem_tracesAll ss v hv)
termination_by structural ss

end

theorem mem_traces_branch {info : Info} {condition thenBranch elseBranch : Option Artifact}
    (taken : Bool) (ht : t ∈ tracesOption (if taken then thenBranch else elseBranch)) :
    (Trace.deciding (.branch info condition thenBranch elseBranch) taken).andThen t ∈
      traces (.branch info condition thenBranch elseBranch) := by
  rw [traces]
  cases taken with
  | true => exact List.mem_append_left _ (List.mem_map_of_mem ht)
  | false => exact List.mem_append_right _ (List.mem_map_of_mem ht)

/-- The executions are the ways through the statements. -/
theorem passes_iff {cs : List (Artifact × Bool)} :
    Passes as cs ↔ ∃ t ∈ tracesAll as, t.outcomes = cs := by
  constructor
  · intro h
    induction h with
    | done => exact ⟨{}, List.mem_singleton_self _, rfl⟩
    | @plain a rest cs ha h ih =>
      obtain ⟨t, ht, rfl⟩ := ih
      cases a with
      | block | ret | branch | function => cases ha
      | _ => exact ⟨_, mem_tracesAll_cons.mpr ⟨_, List.mem_singleton_self _, t, ht, rfl⟩, rfl⟩
    | function h ih =>
      obtain ⟨t, ht, rfl⟩ := ih
      exact ⟨t, mem_tracesAll_cons.mpr ⟨{}, List.mem_singleton_self _, t, ht, rfl⟩, rfl⟩
    | block h ih =>
      obtain ⟨t, ht, rfl⟩ := ih
      exact ⟨t, mem_tracesAll_cons.mpr (mem_tracesAll_append.mp ht), rfl⟩
    | @branch info condition thenBranch elseBranch rest cs taken h ih =>
      obtain ⟨t, ht, rfl⟩ := ih
      obtain ⟨u, hu, v, hv, rfl⟩ := mem_tracesAll_append.mp ht
      rw [← mem_tracesOption] at hu
      refine ⟨_, mem_tracesAll_cons.mpr ⟨_, mem_traces_branch taken hu, v, hv, rfl⟩, ?_⟩
      rw [Trace.andThen_assoc]
      rfl
    | @ret info value rest =>
      obtain ⟨t, ht⟩ := exists_mem_tracesAll rest
      exact ⟨_, mem_tracesAll_cons.mpr ⟨_, List.mem_singleton_self _, t, ht, rfl⟩, rfl⟩
  · rintro ⟨t, ht, rfl⟩
    have h := leads_of_mem_tracesAll as t ht [] [] (by split; exacts [rfl, .done])
    rwa [List.append_nil, List.append_nil] at h

theorem passes_singleton {a : Artifact} {cs : List (Artifact × Bool)} :
    Passes [a] cs ↔ ∃ t ∈ traces a, t.outcomes = cs := by
  rw [passes_iff]
  exact exists_congr fun t => and_congr_left fun _ => (mem_tracesOption (a := some a)).symm

theorem exists_passes (as : List Artifact) : ∃ cs, Passes as cs := by
  obtain ⟨t, ht⟩ := exists_mem_tracesAll as
  exact ⟨t.outcomes, passes_iff.mpr ⟨t, ht, rfl⟩⟩

/-- At any of its branches an execution could have gone the other way. -/
theorem Passes.turn {ds : List (Artifact × Bool)} (h : Passes as ds) :
    ∀ {before after : List (Artifact × Bool)} {b : Artifact} {taken : Bool},
      ds = before ++ (b, taken) :: after → ∃ after', Passes as (before ++ (b, !taken) :: after') := by
  induction h with
  | done =>
    intro before after b taken hd
    simp at hd
  | plain ha _ ih =>
    intro before after b taken hd
    obtain ⟨after', h'⟩ := ih hd
    exact ⟨after', .plain ha h'⟩
  | function _ ih =>
    intro before after b taken hd
    obtain ⟨after', h'⟩ := ih hd
    exact ⟨after', .function h'⟩
  | block _ ih =>
    intro before after b taken hd
    obtain ⟨after', h'⟩ := ih hd
    exact ⟨after', .block h'⟩
  | branch taken _ ih =>
    intro before after b taken' hd
    cases before with
    | nil =>
      -- this is the branch to turn at, and the other side can be gone through somehow
      obtain ⟨rfl, rfl⟩ := Prod.mk.inj (List.cons.inj hd).1
      obtain ⟨after', h'⟩ := exists_passes _
      exact ⟨after', .branch (!taken) h'⟩
    | cons c before =>
      obtain ⟨rfl, hcs⟩ := List.cons.inj hd
      obtain ⟨after', h'⟩ := ih hcs
      exact ⟨after', .branch taken h'⟩
  | ret =>
    intro before after b taken hd
    simp at hd

end Artifact

/-- The branch is not the function's: it lies in another function, or in none. -/
def Forest.Foreign (forest : Forest) (f : Function) (b : Artifact) : Prop :=
  (forest.enclosing? b).map Function.id ≠ some f.id

namespace Path

def Agree (outcomes : List (NodeId × Bool)) : Prop :=
  ∀ p ∈ outcomes, ∀ q ∈ outcomes, p.1 = q.1 → p.2 = q.2

theorem agree_congr {os ps : List (NodeId × Bool)} (h : ∀ p, p ∈ os ↔ p ∈ ps) :
    Agree os ↔ Agree ps := by
  simp only [Agree, h]

theorem agree_cons {os : List (NodeId × Bool)} {i : NodeId} (hs : Agree os)
    (hi : ∀ p ∈ os, p.1 ≠ i) (taken : Bool) : Agree ((i, taken) :: os) := by
  intro p hp q hq he
  obtain rfl | hp := List.mem_cons.mp hp
  · obtain rfl | hq := List.mem_cons.mp hq
    · rfl
    · exact absurd he.symm (hi q hq)
  · obtain rfl | hq := List.mem_cons.mp hq
    · exact absurd he (hi p hp)
    · exact hs p hp q hq he

variable {forest : Forest} {f : Function}

/-- A path passes its check just if all branches are the function's and none has two outcomes. -/
theorem check_eq_ok_iff (cs : List (Artifact × Bool)) {seen : List (NodeId × Bool)}
    (hs : Agree seen) :
    check forest f seen cs = .ok () ↔
      (∀ c ∈ cs, ¬forest.Foreign f c.1) ∧ Agree (seen ++ cs.map fun c => (c.1.id, c.2)) := by
  induction cs generalizing seen with
  | nil => simpa [check] using hs
  | cons c cs ih =>
    obtain ⟨branch, taken⟩ := c
    rw [check, List.forall_mem_cons, List.map_cons]
    split
    · next hforeign => simp [Forest.Foreign, hforeign]
    · next hown =>
      rw [and_iff_right (show ¬forest.Foreign f branch from hown)]
      cases hfind : seen.find? (·.1 = branch.id) with
      | some p =>
        obtain ⟨i, prior⟩ := p
        obtain rfl : i = branch.id := by simpa using List.find?_some hfind
        have hmem : (branch.id, prior) ∈ seen := List.mem_of_find?_eq_some hfind
        by_cases ht : prior = taken
        · subst ht
          -- the outcome is known already, so nothing is added to those seen
          refine (if_neg fun h => h rfl).congr_left.trans ((ih hs).trans (and_congr_right fun _ => ?_))
          refine agree_congr fun p => ?_
          simp only [List.mem_append, List.mem_cons]
          grind
        · have hne : ¬Agree (seen ++ (branch.id, taken) :: cs.map fun c => (c.1.id, c.2)) := fun h =>
            ht (h _ (List.mem_append_left _ hmem) _ (List.mem_append_right _ List.mem_cons_self) rfl)
          simp [ht, hne]
      | none =>
        have hnew : Agree ((branch.id, taken) :: seen) :=
          agree_cons hs (by simpa [List.find?_eq_none] using hfind) taken
        refine (ih hnew).trans (and_congr_right fun _ => agree_congr fun p => ?_)
        simp only [List.mem_append, List.mem_cons]
        grind

/-- The fault says that the tree is broken, or that one of the branches cannot be written. -/
def Blames (cs : List (Artifact × Bool)) (e : Fault) : Prop :=
  (∃ reason context, e = .broken reason context) ∨ ∃ c ∈ cs, c.1.text = .error e

theorem blames_misplaced {cs : List (Artifact × Bool)} {c : Artifact × Bool} (hc : c ∈ cs)
    (reason : String) : Blames cs (misplaced f reason c.1) := by
  rw [misplaced]
  cases htext : c.1.text with
  | ok text => exact .inl ⟨_, _, rfl⟩
  | error e => exact .inr ⟨c, hc, htext⟩

theorem Blames.cons {cs : List (Artifact × Bool)} {e : Fault} (h : Blames cs e)
    (c : Artifact × Bool) : Blames (c :: cs) e := by
  obtain h | ⟨d, hd, hte⟩ := h
  · exact .inl h
  · exact .inr ⟨d, List.mem_cons_of_mem c hd, hte⟩

theorem check_eq_error (cs : List (Artifact × Bool)) {seen : List (NodeId × Bool)} {e : Fault}
    (h : check forest f seen cs = .error e) : Blames cs e := by
  induction cs generalizing seen with
  | nil => cases h
  | cons c cs ih =>
    obtain ⟨branch, taken⟩ := c
    rw [check] at h
    split at h
    · cases h
      exact blames_misplaced List.mem_cons_self _
    · split at h
      · split at h
        · cases h
          exact blames_misplaced List.mem_cons_self _
        · exact (ih h).cons _
      · exact (ih h).cons _

theorem make_eq_ok_iff {cs : List (Artifact × Bool)} {artifacts : List Artifact} :
    (∃ p, make forest f cs artifacts = .ok p) ↔
      (∀ c ∈ cs, ¬forest.Foreign f c.1) ∧ Agree (cs.map fun c => (c.1.id, c.2)) := by
  have hcheck : check forest f [] cs = .ok () ↔
      (∀ c ∈ cs, ¬forest.Foreign f c.1) ∧ Agree (cs.map fun c => (c.1.id, c.2)) :=
    check_eq_ok_iff cs fun _ h => absurd h List.not_mem_nil
  rw [← hcheck]
  constructor
  · rintro ⟨p, hp⟩
    obtain ⟨_, h, -⟩ := ok_of_bind hp
    exact h
  · intro h
    exact ⟨_, by rw [make, h]; rfl⟩

theorem make_eq_error {cs : List (Artifact × Bool)} {artifacts : List Artifact} {e : Fault}
    (h : make forest f cs artifacts = .error e) : Blames cs e := by
  obtain h | ⟨-, -, h⟩ := error_of_bind h
  · exact check_eq_error cs h
  · cases h

end Path

/-- Some execution of the body meets a branch twice, or a branch that is not the function's. -/
def Forest.Tangled (forest : Forest) (f : Function) : Prop :=
  ∃ cs, Artifact.Passes [f.body] cs ∧
    (¬(cs.map fun c => c.1.id).Nodup ∨ ∃ c ∈ cs, forest.Foreign f c.1)

namespace Path

open Artifact (Passes traces)

variable {forest : Forest} {f : Function}

theorem exists_repeated {cs : List (Artifact × Bool)} (hn : ¬(cs.map fun c => c.1.id).Nodup) :
    ∃ before c after, cs = before ++ c :: after ∧ ∃ d ∈ before, d.1.id = c.1.id := by
  induction cs using List.reverseRecOn with
  | nil => exact absurd List.nodup_nil hn
  | append_singleton cs c ih =>
    by_cases hcs : (cs.map fun c => c.1.id).Nodup
    · have hc : c.1.id ∈ cs.map fun c => c.1.id := by
        by_contra hc
        rw [List.map_append, List.map_singleton] at hn
        exact hn (hcs.append (List.nodup_singleton _) (by simpa using hc))
      obtain ⟨d, hd, he⟩ := List.mem_map.mp hc
      exact ⟨cs, c, [], rfl, d, hd, he⟩
    · obtain ⟨before, c', after, rfl, hd⟩ := ih hcs
      exact ⟨before, c', after ++ [c], by simp, hd⟩

/-- If a branch can be met twice then it can have two outcomes: where it is met again, the execution could
have gone the other way. -/
theorem exists_not_agree {a : Artifact} {cs : List (Artifact × Bool)} (h : Passes [a] cs)
    (hn : ¬(cs.map fun c => c.1.id).Nodup) :
    ∃ ds, Passes [a] ds ∧ ¬Agree (ds.map fun c => (c.1.id, c.2)) := by
  obtain ⟨before, c, after, rfl, d, hd, hid⟩ := exists_repeated hn
  by_cases ht : d.2 = c.2
  · obtain ⟨after', h'⟩ := h.turn rfl
    refine ⟨_, h', fun hagree => ?_⟩
    have : d.2 = !c.2 := hagree (d.1.id, d.2)
      (List.mem_map_of_mem (f := fun c => (c.1.id, c.2)) (List.mem_append_left _ hd))
      (c.1.id, !c.2) (by simp) hid
    simp [ht] at this
  · refine ⟨_, h, fun hagree => ht ?_⟩
    exact hagree (d.1.id, d.2) (List.mem_map_of_mem (List.mem_append_left _ hd)) (c.1.id, c.2)
      (List.mem_map_of_mem (List.mem_append_right _ List.mem_cons_self)) hid

theorem agree_of_nodup {cs : List (Artifact × Bool)} (hn : (cs.map fun c => c.1.id).Nodup) :
    Agree (cs.map fun c => (c.1.id, c.2)) := by
  intro p hp q hq he
  obtain ⟨c, hc, rfl⟩ := List.mem_map.mp hp
  obtain ⟨d, hd, rfl⟩ := List.mem_map.mp hq
  rw [List.inj_on_of_nodup_map hn hc hd he]

theorem tangled_iff : forest.Tangled f ↔
    ∃ t ∈ traces f.body, ¬∃ p, make forest f t.outcomes t.emitted = .ok p := by
  constructor
  · rintro ⟨cs, h, hn | ⟨c, hc, hforeign⟩⟩
    · obtain ⟨ds, hd, hagree⟩ := exists_not_agree h hn
      obtain ⟨t, ht, rfl⟩ := Artifact.passes_singleton.mp hd
      exact ⟨t, ht, fun hok => hagree (make_eq_ok_iff.mp hok).2⟩
    · obtain ⟨t, ht, rfl⟩ := Artifact.passes_singleton.mp h
      exact ⟨t, ht, fun hok => (make_eq_ok_iff.mp hok).1 c hc hforeign⟩
  · rintro ⟨t, ht, hbad⟩
    refine ⟨t.outcomes, Artifact.passes_singleton.mpr ⟨t, ht, rfl⟩, ?_⟩
    by_contra hgood
    rw [not_or, not_not, not_exists] at hgood
    refine hbad (make_eq_ok_iff.mpr ⟨fun c hc hf => hgood.2 c ⟨hc, hf⟩, agree_of_nodup hgood.1⟩)

instance (forest : Forest) (f : Function) (b : Artifact) : Decidable (forest.Foreign f b) :=
  inferInstanceAs (Decidable (_ ≠ _))

instance (forest : Forest) (f : Function) : Decidable (forest.Tangled f) :=
  decidable_of_iff (∃ t ∈ traces f.body, ¬(t.outcomes.map fun c => c.1.id).Nodup ∨
    ∃ c ∈ t.outcomes, forest.Foreign f c.1) (by simp [Forest.Tangled, Artifact.passes_singleton])

theorem enumerate_unbounded (forest : Forest) (f : Function) (m : Int) :
    enumerate forest f (.unbounded m) =
      ((traces f.body).mapM (fun t => make forest f t.outcomes t.emitted),
        .unbounded (m + 2 * ((traces f.body).length - 1))) := by
  obtain ⟨n, hlength, hn⟩ := enumerate_eq forest f
  rw [hn, Timed.bind_apply, Timed.forks_unbounded, hlength,
    show ((n + 1 : Nat) : Int) - 1 = n by omega]
  rfl

theorem exists_of_mapM {α β : Type} {as : List α} {bs : List β} {g : α → Except Fault β}
    (h : as.mapM g = .ok bs) : ∀ a ∈ as, ∃ b, g a = .ok b := by
  replace h := forall₂_of_mapM h
  induction h with
  | nil => exact List.forall_mem_nil _
  | cons hb _ ih => exact List.forall_mem_cons.mpr ⟨⟨_, hb⟩, ih⟩

theorem not_tangled_of_mapM {paths : List Path}
    (h : (traces f.body).mapM (fun t => make forest f t.outcomes t.emitted) = .ok paths) :
    ¬forest.Tangled f := by
  rw [tangled_iff]
  rintro ⟨t, ht, hbad⟩
  exact hbad (exists_of_mapM h t ht)

/-- Without a limit the paths of a function are built, unless its body is tangled: then the check of some
path fails. It finds the tree broken, unless a branch that an execution meets cannot be written. A body in
which nothing is shared is not tangled. -/
theorem enumerate_broken_iff (forest : Forest) (f : Function) (m : Int) :
    ((∃ paths, (enumerate forest f (.unbounded m)).1 = .ok paths) ↔ ¬forest.Tangled f) ∧
    (∀ e, (enumerate forest f (.unbounded m)).1 = .error e →
      ∃ cs, Artifact.Passes [f.body] cs ∧ Blames cs e) ∧
    ((∀ cs, Artifact.Passes [f.body] cs → ∀ c ∈ cs, ∃ text, c.1.text = .ok text) →
      ((∃ reason context, (enumerate forest f (.unbounded m)).1 = .error (.broken reason context)) ↔
        forest.Tangled f)) ∧
    (forest.Sound → forest.Holds f.artifact → forest.Unshared f → ¬forest.Tangled f) := by
  have hunshared (sound : forest.Sound) (held : forest.Holds f.artifact) (tree : forest.Unshared f) :
      ¬forest.Tangled f := not_tangled_of_mapM (mapM_make sound held tree)
  rw [enumerate_unbounded]
  cases hmake : (traces f.body).mapM (fun t => make forest f t.outcomes t.emitted) with
  | ok paths =>
    have hfree := not_tangled_of_mapM hmake
    refine ⟨by simp [hfree], fun e he => ?_, fun _ => by simp [hfree], hunshared⟩
    cases he
  | error e =>
    obtain ⟨t, ht, he⟩ := mapM_eq_error hmake
    have hblames := make_eq_error he
    have hpasses : Passes [f.body] t.outcomes := Artifact.passes_singleton.mpr ⟨t, ht, rfl⟩
    have htangled : forest.Tangled f := tangled_iff.mpr ⟨t, ht, by simp [he]⟩
    refine ⟨by simp [htangled], ?_, fun hprints => ?_, hunshared⟩
    · intro e' he'
      cases he'
      exact ⟨t.outcomes, hpasses, hblames⟩
    · obtain ⟨reason, context, rfl⟩ | ⟨c, hc, htext⟩ := hblames
      · simp [htangled]
      · obtain ⟨text, h⟩ := hprints t.outcomes hpasses c hc
        rw [htext] at h
        cases h

/-- The first function meets its branch again in a block. The branch of the second one is taken over by
the third. -/
def lending : Session :=
  let x : Draft := .reference none "x" (some 0)
  .start [
    .defining "again" [x] [
      .labelled "again" (.branch none (some x) (some (.block none [.calling "one" []])) none),
      .block none [.calling "two" [], .shared "again"]],
    .defining "lender" [x] [
      .branch none none (some (.ret none none)) none,
      .labelled "lent" (.branch none (some x) none none)],
    .defining "borrower" [x] [.shared "lent"]] {}

theorem enumerate_broken_lending :
    lending.functions.map Function.name = ["again", "lender", "borrower"] ∧
      (∀ f ∈ lending.functions.take 2, ∃ reason context,
        (enumerate lending.forest f (.unbounded 0)).1 = .error (.broken reason context)) ∧
      (∀ f ∈ lending.functions.drop 2, ∃ paths,
        (enumerate lending.forest f (.unbounded 0)).1 = .ok paths) ∧
      ¬guarded.forest.Tangled guardedFunction := by
  have htangled : ∀ f ∈ lending.functions.take 2, lending.forest.Tangled f := by decide +kernel
  have hprints : ∀ f ∈ lending.functions.take 2, ∀ cs, Passes [f.body] cs →
      ∀ c ∈ cs, ∃ text, c.1.text = .ok text := by
    have h : ∀ f ∈ lending.functions.take 2, ∀ t ∈ traces f.body, ∀ c ∈ t.outcomes,
        c.1.text.toOption.isSome := by decide +kernel
    intro f hf cs hcs c hc
    obtain ⟨t, ht, rfl⟩ := Artifact.passes_singleton.mp hcs
    have hc := h f hf t ht c hc
    cases htext : c.1.text with
    | ok text => exact ⟨text, rfl⟩
    | error e =>
      rw [htext] at hc
      cases hc
  have hfree : ∀ f ∈ lending.functions.drop 2, ¬lending.forest.Tangled f := by decide +kernel
  refine ⟨by decide +kernel, fun f hf => ?_, fun f hf => ?_, ?_⟩
  · exact ((enumerate_broken_iff lending.forest f 0).2.2.1 (hprints f hf)).mpr (htangled f hf)
  · exact (enumerate_broken_iff lending.forest f 0).1.mpr (hfree f hf)
  · exact (enumerate_broken_iff guarded.forest guardedFunction 0).2.2.2 sound_guarded.1 holds_guarded
      unshared_guarded

/-- Two ticks for every path but the first is what building the paths of a body costs in which nothing is
shared. With a limit it stops just if that is more than there is left, and says that the ticks are used up
unless the numbers have too many digits. -/
theorem enumerate_ticks {forest : Forest} {f : Function} (sound : forest.Sound)
    (held : forest.Holds f.artifact) (tree : forest.Unshared f) (m : Int) :
    ∃ paths, paths ≠ [] ∧
      enumerate forest f (.unbounded m) = (.ok paths, .unbounded (m + 2 * (paths.length - 1))) ∧
      ∀ limit, m ≤ limit →
        ((∃ mark, limit < mark ∧ mark ≤ limit + 2 ∧
          (enumerate forest f (.metered limit m)).1 = .error (Clock.overrun limit mark)) ↔
          limit < m + 2 * (paths.length - 1)) ∧
        (isLong limit = false → isLong (limit + 2) = false →
          ((∃ mark, (enumerate forest f (.metered limit m)).1 = .error (.exhausted mark limit)) ↔
            limit < m + 2 * (paths.length - 1))) ∧
        (m + 2 * (paths.length - 1) ≤ limit → enumerate forest f (.metered limit m) =
          (.ok paths, .metered limit (m + 2 * (paths.length - 1)))) := by
  have hmake := mapM_make sound held tree
  obtain ⟨n, hlength, hn⟩ := enumerate_eq forest f
  have hpaths : (((traces f.body).map (ofTrace f)).length : Int) - 1 = n := by
    rw [List.length_map]
    omega
  refine ⟨(traces f.body).map (ofTrace f), ?_, ?_, ?_⟩
  · rw [← List.length_pos_iff, List.length_map]
    omega
  · rw [enumerate_unbounded, hmake, List.length_map]
  · intro limit hm
    rw [hpaths, hn, hmake, Timed.bind_apply]
    obtain ⟨hle, hforks⟩ | ⟨j, hj, hj', hle, hforks⟩ := Timed.forks_metered n hm
    · have hover : ¬limit < m + 2 * n := by omega
      rw [hforks]
      refine ⟨⟨?_, fun h => absurd h hover⟩, fun _ _ => ⟨?_, fun h => absurd h hover⟩, fun _ => rfl⟩
      · rintro ⟨mark, -, -, h⟩
        cases h
      · rintro ⟨mark, h⟩
        cases h
    · -- the clock stops inside the forks, before any path is checked
      have hover : limit < m + 2 * n := by omega
      rw [hforks]
      refine ⟨⟨fun _ => hover, fun _ => ⟨j, hj, hj', rfl⟩⟩, fun hl hl' => ⟨fun _ => hover, fun _ => ?_⟩,
        fun h => absurd h (by omega)⟩
      have hshort : isLong j = false := by
        obtain h | h : j.natAbs ≤ limit.natAbs ∨ j.natAbs ≤ (limit + 2).natAbs := by omega
        · exact isLong_eq_false hl h
        · exact isLong_eq_false hl' h
      exact ⟨j, congrArg Except.error (Clock.overrun_eq hl hshort)⟩

/-- Five paths cost eight ticks. -/
theorem enumerate_ticks_guarded :
    ∃ paths, paths.length = 5 ∧
      enumerate guarded.forest guardedFunction (.unbounded 3) = (.ok paths, .unbounded 11) ∧
      enumerate guarded.forest guardedFunction (.metered 11 3) = (.ok paths, .metered 11 11) ∧
      ∃ mark, (enumerate guarded.forest guardedFunction (.metered 10 3)).1 =
        .error (.exhausted mark 10) := by
  obtain ⟨paths, -, hunbounded, hmetered⟩ :=
    enumerate_ticks sound_guarded.1 holds_guarded unshared_guarded 3
  have hlength : paths.length = 5 := by
    rw [eq_of_enumerate hunbounded, List.length_map]
    decide +kernel
  rw [hlength] at hunbounded hmetered
  exact ⟨paths, hlength, hunbounded, (hmetered 11 (by omega)).2.2 (by omega),
    ((hmetered 10 (by omega)).2.1 (by cbv) (by cbv)).mpr (by omega)⟩

end Path

end CallTime

import CallTime.Insight.Store
import CallTime.Proofs.Enumeration
import CallTime.Proofs.Values

/-!
What calls cost, as a recursive function.

The cost of a call is read off its own arguments, whatever was analysed before. It is meant for programs
without recursion whose calls are given constants and parameters only: for these the recursion ends.
-/

namespace CallTime

theorem error_of_bind {α β : Type} {x : Except Fault α} {f : α → Except Fault β} {e : Fault}
    (h : (x >>= f) = .error e) : x = .error e ∨ ∃ a, x = .ok a ∧ f a = .error e := by
  cases x with
  | error e' =>
    cases h
    exact .inl rfl
  | ok a => exact .inr ⟨a, rfl, h⟩

theorem ok_of_bind {α β : Type} {x : Except Fault α} {f : α → Except Fault β} {b : β}
    (h : (x >>= f) = .ok b) : ∃ a, x = .ok a ∧ f a = .ok b := by
  cases x with
  | error e => cases h
  | ok a => exact ⟨a, rfl, h⟩

theorem mapM_forall₂ {α α' β : Type} {as : List α} {bs : List α'} {f : α → Except Fault β}
    {g : α' → Except Fault β} (h : List.Forall₂ (fun a b => f a = g b) as bs) :
    as.mapM f = bs.mapM g := by
  induction h with
  | nil => rfl
  | cons h _ ih => rw [List.mapM_cons, List.mapM_cons, h, ih]

theorem mapM_congr {α β : Type} {as : List α} {f g : α → Except Fault β}
    (h : ∀ a ∈ as, f a = g a) : as.mapM f = as.mapM g :=
  mapM_forall₂ (List.forall₂_same.mpr h)

theorem mapM_eq_ok {α β : Type} {as : List α} {f : α → Except Fault β} {g : α → β}
    (h : ∀ a ∈ as, f a = .ok (g a)) : as.mapM f = .ok (as.map g) := by
  rw [mapM_congr h]
  exact List.mapM_pure

theorem forall₂_of_mapM {α β : Type} {as : List α} {bs : List β} {f : α → Except Fault β}
    (h : as.mapM f = .ok bs) : List.Forall₂ (fun a b => f a = .ok b) as bs := by
  induction as generalizing bs with
  | nil =>
    cases h
    exact .nil
  | cons a as ih =>
    rw [List.mapM_cons] at h
    obtain ⟨b, hb, h⟩ := ok_of_bind h
    obtain ⟨bs, hbs, h⟩ := ok_of_bind h
    cases h
    exact .cons hb (ih hbs)

theorem mapM_eq_error {α β : Type} {as : List α} {f : α → Except Fault β} {e : Fault}
    (h : as.mapM f = .error e) : ∃ a ∈ as, f a = .error e := by
  induction as with
  | nil => cases h
  | cons a as ih =>
    rw [List.mapM_cons] at h
    obtain ha | ⟨b, -, h⟩ := error_of_bind h
    · exact ⟨a, List.mem_cons_self, ha⟩
    · obtain has | ⟨bs, -, h⟩ := error_of_bind h
      · obtain ⟨a', ha', he⟩ := ih has
        exact ⟨a', List.mem_cons_of_mem a ha', he⟩
      · cases h

def Value.Simple : Value → Prop
  | .null | .bool _ | .int _ | .str _ | .bytes _ => True
  | _ => False

instance (v : Value) : Decidable v.Simple := by
  unfold Value.Simple
  split <;> infer_instance

namespace Artifact

def Constant : Artifact → Prop
  | .literal _ value _ => value.Simple
  | .reference _ _ (some index) => 0 ≤ index
  | _ => False

instance (a : Artifact) : Decidable a.Constant := by
  unfold Constant
  split <;> infer_instance

def Parameter : Artifact → Prop
  | .reference _ _ (some index) => 0 ≤ index
  | .reference _ _ none => True
  | _ => False

instance (a : Artifact) : Decidable a.Parameter := by
  unfold Parameter
  split <;> infer_instance

/-- The value of an argument in a function that was given arguments with the values `ρ`. -/
def under (ρ : Signature) : Artifact → Option Value
  | .literal _ value _ => some value
  | .reference _ _ (some index) => ρ[index.toNat]?.join
  | _ => none

end Artifact

namespace Signature

/-- The values of the arguments of a call in a function that was given arguments with the values `ρ`. -/
def substitute (ρ : Signature) (call : Artifact) : Signature := call.children.map (Artifact.under ρ)

def known (σ : Signature) : Bool := σ.all Option.isSome

def literals (forest : Forest) (σ : Signature) : List Artifact :=
  σ.filterMap fun value => value.map fun v => .literal ⟨forest.nodes.size, none⟩ v

end Signature

namespace Path

def calls (p : Path) : List Artifact := (p.artifacts.flatMap Artifact.walk).filter Artifact.isCall

def timed (p : Path) : Option Int → Path
  | some duration =>
    { p with data := ⟨⟨[(.pathDuration, .insight ⟨.pathDuration, .int duration, true⟩)]⟩⟩ }
  | none => { p with data := {} }

/-- The durations of paths from those known on each of them: their sums, but none at all if nothing is
known on any path. -/
def totals (known : List (List Int)) : List (Option Int) :=
  if known.all List.isEmpty then known.map fun _ => none
  else known.map fun durations => some (durations.foldr (· + ·) 0)

end Path

abbrev Cost := Option (Int × String)

namespace Program

/-- Conditions look at the values of objects only. -/
def ByValue (P : Program) : Prop :=
  ∀ f ∈ P.functions, ∀ branch ∈ body f, ∀ a ∈ Artifact.walkFrom (Path.conditionOf branch).toList,
    a.asksIdentity = false

instance (P : Program) : Decidable P.ByValue := by
  unfold ByValue
  infer_instance

/-- No function leads back to itself, none is nested in another, every argument of a call is a constant
or a parameter, and no condition asks for the identity of objects. -/
structure Plain (P : Program) : Prop where
  byValue : P.ByValue
  acyclic : ∀ f ∈ P.functions, ¬P.forest.Recursive f
  flat : ∀ f ∈ P.functions, ∀ a ∈ body f, a.isFunction = false
  parameters : ∀ f ∈ P.functions, ∀ a ∈ f.parameters, a.Parameter
  constant : ∀ f ∈ P.functions, ∀ call ∈ body f, call.isCall → ∀ a ∈ call.children, a.Constant

def timedPaths (P : Program) (cost : Artifact → Except Fault Cost) (f : Function) :
    Except Fault (List Path) := do
  let known ← (P.paths f).mapM fun p => do return (← p.calls.mapM cost).filterMap (·.map Prod.fst)
  return (P.paths f).zipWith Path.timed (Path.totals known)

/-- The mean over the paths that arguments with these values allow, once all are known. -/
def mean (P : Program) (cost : Artifact → Except Fault Cost) (f : Function) (σ : Signature) :
    Except Fault (Option Int) :=
  if σ.known then do Path.average (← Path.candidates (σ.literals P.forest) (← P.timedPaths cost f))
  else .ok none

/-- The cost of a call where calls may be `n` deep. -/
def costWithin (P : Program) (durations : Durations) :
    (n : Nat) → Signature → Artifact → Except Fault Cost
  | 0, _, _ => .ok none
  | n + 1, ρ, call => match P.forest.target? call with
    | none => .ok none
    | some g => match durations.measured? g with
      | some v => do return some (← v.toInt, "measured")
      | none => do
        let σ := ρ.substitute call
        return (← P.mean (P.costWithin durations n σ) g σ).map (·, "paths")

/-- The cost of a call in a function that was given arguments with the values `ρ`. -/
def cost (P : Program) (durations : Durations) : Signature → Artifact → Except Fault Cost :=
  P.costWithin durations P.functions.length

variable {P : Program} {durations : Durations} {f g : Function}

theorem mem_body_of_mem_calls {p : Path} (hp : p.In f) {call : Artifact} (hc : call ∈ p.calls) :
    call ∈ body f := by
  obtain ⟨a, ha, hw⟩ := List.mem_flatMap.mp (List.mem_filter.mp hc).1
  exact Artifact.mem_walkFrom_of_mem_walk (hp.artifacts a ha) hw

theorem calls_of_target? {call : Artifact} (hc : call ∈ body f)
    (hg : P.forest.target? call = some g) : P.forest.Calls f g :=
  ⟨call, walk_function f ▸ List.mem_cons_of_mem _ hc, hg⟩

theorem timedPaths_congr (hP : P.Plain) (hf : f ∈ P.functions)
    {cost cost' : Artifact → Except Fault Cost}
    (h : ∀ call ∈ body f, call.isCall = true → cost call = cost' call) :
    P.timedPaths cost f = P.timedPaths cost' f := by
  have hin := in_of_mem_paths hf (hP.flat f hf)
  have hp : ∀ p ∈ P.paths f,
      (do return (← p.calls.mapM cost).filterMap (·.map Prod.fst) : Except Fault (List Int)) =
        do return (← p.calls.mapM cost').filterMap (·.map Prod.fst) := by
    intro p hp
    rw [mapM_congr fun call hc =>
      h call (mem_body_of_mem_calls (hin p hp) hc) (List.mem_filter.mp hc).2]
  rw [timedPaths, timedPaths, mapM_congr hp]

theorem mean_congr (hP : P.Plain) (hf : f ∈ P.functions) {cost cost' : Artifact → Except Fault Cost}
    (h : ∀ call ∈ body f, call.isCall = true → cost call = cost' call) (σ : Signature) :
    P.mean cost f σ = P.mean cost' f σ := by
  rw [mean, mean, timedPaths_congr hP hf h]

/-- What can be deeper than the functions below the called one changes nothing. -/
theorem costWithin_eq (hP : P.Plain) {n m : Nat} {ρ : Signature} {call : Artifact}
    (hg : P.forest.target? call = some g) (hn : P.forest.rank P.functions g ≤ n)
    (hm : P.forest.rank P.functions g ≤ m) :
    P.costWithin durations n ρ call = P.costWithin durations m ρ call := by
  have hmem := mem_of_target? hg
  induction n generalizing m ρ call g with
  | zero => exact absurd (Forest.rank_pos hmem) (Nat.not_lt.mpr hn)
  | succ n ih =>
    cases m with
    | zero => exact absurd (Forest.rank_pos hmem) (Nat.not_lt.mpr hm)
    | succ m =>
      have hmean : P.mean (P.costWithin durations n (ρ.substitute call)) g (ρ.substitute call) =
          P.mean (P.costWithin durations m (ρ.substitute call)) g (ρ.substitute call) := by
        refine mean_congr hP hmem (fun inner hi _ => ?_) _
        cases hk : P.forest.target? inner with
        | none => cases n <;> cases m <;> simp only [costWithin, hk]
        | some k =>
          have hlt := Forest.rank_lt hmem (hP.acyclic g hmem) (calls_of_target? hi hk)
          exact ih hk (by omega) (by omega) (mem_of_target? hk)
      simp only [costWithin, hg, hmean]

theorem cost_eq (hP : P.Plain) (durations : Durations) (ρ : Signature) {call : Artifact}
    (hg : P.forest.target? call = some g) :
    P.cost durations ρ call = match durations.measured? g with
      | some v => do return some (← v.toInt, "measured")
      | none => do
        return (← P.mean (P.cost durations (ρ.substitute call)) g (ρ.substitute call)).map
          (·, "paths") := by
  have hle := Forest.rank_le_length P.forest P.functions g
  rw [cost, costWithin_eq hP hg (m := P.functions.length + 1) hle (by omega), costWithin, hg]

theorem cost_of_target?_eq_none {ρ : Signature} {call : Artifact}
    (hg : P.forest.target? call = none) : P.cost durations ρ call = .ok none := by
  rw [cost]
  cases P.functions.length <;> simp only [costWithin, hg]

/-- The argument values that a function can be given: none known at first, and those of any call in a
function that is given such values itself. -/
inductive Arises (P : Program) : Function → Signature → Prop
  | root {f : Function} (hf : f ∈ P.functions) : Arises P f (f.parameters.map fun _ => none)
  | call {f g : Function} {ρ : Signature} {call : Artifact} (h : Arises P f ρ)
      (hc : call ∈ body f) (hg : P.forest.target? call = some g) : Arises P g (ρ.substitute call)

theorem Arises.mem {σ : Signature} (h : P.Arises f σ) : f ∈ P.functions := by
  cases h with
  | root hf => exact hf
  | call _ _ hg => exact mem_of_target? hg

theorem isCall_of_target? {call : Artifact} (hg : P.forest.target? call = some g) :
    call.isCall = true := by
  cases call <;> first | rfl | cases hg

/-- Some call that can arise makes its mean fail, or is measured to take what is no number. -/
def Fails (P : Program) (durations : Durations) (e : Fault) : Prop :=
  ∃ f ρ call g, P.Arises f ρ ∧ call ∈ body f ∧ P.forest.target? call = some g ∧
    (P.mean (P.cost durations (ρ.substitute call)) g (ρ.substitute call) = .error e ∨
      ∃ v, durations.measured? g = some v ∧ v.toInt = .error e)

end Program

end CallTime

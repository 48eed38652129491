import CallTime.Proofs.Locals

/-!
Names that stand for constants.

A name that was assigned a constant is lowered to that constant until a later statement may bind it.
Main statement: whenever a run of a body comes to an expression that is lowered, the variables of all
names that stand for constants there hold these constants, unless the body writes a variable in two ways.
-/

namespace CallTime.Source

def SpelledOnce (className : Option String) (names : List String) : Prop :=
  ∀ x ∈ names, ∀ y ∈ names, privateName className x = privateName className y → x = y

namespace Scope

theorem get?_forget (scope : Scope) (xs : List String) (x : String) :
    (scope.forget xs).constants.get? x = if x ∈ xs then none else scope.constants.get? x := by
  obtain ⟨className, parameters, rebound, constants⟩ := scope
  simp only [forget]
  induction xs generalizing constants with
  | nil => rfl
  | cons y xs ih =>
    rw [List.foldl_cons, ih, OrderedMap.get?_erase]
    by_cases hy : y = x
    · simp [hy]
    · simp [hy, Ne.symm hy]

section Holds

variable {V : Type} (obj : Value → V) (className : Option String) (names : List String)

/-- The names that stand for constants are among these, and their variables hold the constants. -/
def Holds (scope : Scope) (ρ : Locals V) : Prop :=
  ∀ x c, scope.constants.get? x = some c →
    x ∈ names ∧ ρ (privateName className x) = some (obj c.value)

variable {obj className names} {scope : Scope} {ρ ρ' : Locals V} {tr : List (Look V)} {o : Finish}

theorem Holds.forget (h : scope.Holds obj className names ρ) (hone : SpelledOnce className names)
    {xs : List String} (hxs : xs ⊆ names)
    (hρ : ∀ y ∉ xs.map (privateName className), ρ' y = ρ y) :
    (scope.forget xs).Holds obj className names ρ' := by
  intro x v hx
  rw [get?_forget] at hx
  split at hx
  · cases hx
  · next hnot =>
    obtain ⟨hmem, hv⟩ := h x v hx
    refine ⟨hmem, (hρ _ fun hin => ?_).trans hv⟩
    obtain ⟨y, hy, he⟩ := List.mem_map.mp hin
    obtain rfl := hone y (hxs hy) x hmem he
    exact hnot hy

/-- A statement that ends normally keeps the scope of the next one true. -/
theorem Holds.after (h : scope.Holds obj className names ρ) (hone : SpelledOnce className names)
    {s : Stmt} (hs : s.boundNames ⊆ names) (hr : Runs obj className (.statement s) ρ tr .normal ρ') :
    (scope.after s).Holds obj className names ρ' := by
  have hforget := h.forget hone hs hr.confined.locals
  unfold Scope.after
  split
  · next id v hc =>
    obtain ⟨hid, rfl⟩ := hr.eq_update_of_constant hc
    intro x w hx
    rw [OrderedMap.get?_insert] at hx
    split at hx
    · next he =>
      obtain rfl := he
      obtain rfl := Option.some.inj hx
      exact ⟨hs hid, Function.update_self ..⟩
    · exact hforget x w hx
  · exact hforget

/-- The scope that a statement is lowered in is true whenever the statement evaluates something that is
lowered. -/
theorem Holds.inside (h : scope.Holds obj className names ρ) (hone : SpelledOnce className names)
    {s : Stmt} (hs : s.boundNames ⊆ names) (hr : Runs obj className (.statement s) ρ tr o ρ')
    {l : Look V} (hl : l ∈ tr) (hvalue : Program.isStraight s = true → l.isTarget = false) :
    (scope.inside s).Holds obj className names l.locals := by
  unfold Scope.inside
  split
  · next hstraight =>
    rw [hr.locals_eq_of_straight hstraight l hl (hvalue hstraight)]
    exact h
  · exact h.forget hone hs (hr.confined.looks l hl)

theorem Holds.places (h : scope.Holds obj className names ρ) (hone : SpelledOnce className names)
    {ss : List Stmt} (hss : ss.flatMap Stmt.boundNames ⊆ names) {n : Nat} {sc : Scope} {s : Stmt}
    (hn : (scope.places ss)[n]? = some (sc, s))
    (hr : Runs obj className (.block (ss.take n)) ρ tr .normal ρ') :
    ∃ before : Scope, before.Holds obj className names ρ' ∧ sc = before.inside s ∧ s ∈ ss := by
  induction ss generalizing scope ρ tr n with
  | nil => cases hn
  | cons t ss ih =>
    obtain ⟨ht, hss⟩ := List.append_subset.mp hss
    cases n with
    | zero =>
      cases hn
      cases hr
      exact ⟨scope, h, rfl, List.mem_cons_self⟩
    | succ n =>
      cases hr with
      | leave _ ho => exact absurd rfl ho
      | cons hs hrest =>
        obtain ⟨before, hbefore, hsc, hmem⟩ := ih (h.after hone ht hs) hss hn hrest
        exact ⟨before, hbefore, hsc, List.mem_cons_of_mem _ hmem⟩

end Holds

end Scope

theorem Program.expr_name_eq_literal_iff {p : Program} {scope : Scope} {line : Nat} {x : String}
    {v : Value} {place : Option Place} :
    p.expr scope (.name line x .load) = .ok (some (.literal (some line) v place)) ↔
      ∃ c, scope.constants.get? x = some c ∧ c.value = v ∧ some c.place = place := by
  rw [Program.expr, lowerExpr]
  cases hget : scope.constants.get? x with
  | none =>
    refine ⟨fun h => ?_, fun h => ?_⟩
    · cases h
    · obtain ⟨c, hc, -⟩ := h
      cases hc
  | some c =>
    refine ⟨fun h => ?_, fun h => ?_⟩
    · cases h
      exact ⟨c, rfl, rfl, rfl⟩
    · obtain ⟨_, ⟨⟩, rfl, rfl⟩ := h
      rfl

/-- A statement of a body runs after those before it. If a name is lowered to a constant in it, the
variable holds the constant whenever the statement evaluates something. Of statements without a body only
values are lowered, not what they bind. -/
theorem Signature.constant_holds (p : Program) (f : Signature)
    (hone : SpelledOnce f.className (f.body.flatMap Stmt.boundNames)) {V : Type} (obj : Value → V)
    {n : Nat} {scope : Scope} {s : Stmt} (hn : f.places[n]? = some (scope, s))
    {ρ ρ₁ ρ₂ : Locals V} {tr tr' : List (Look V)} {o : Finish}
    (hbefore : Runs obj f.className (.block (f.body.take n)) ρ tr .normal ρ₁)
    (hrun : Runs obj f.className (.statement s) ρ₁ tr' o ρ₂) {l : Look V} (hl : l ∈ tr')
    (hvalue : Program.isStraight s = true → l.isTarget = false) {line : Nat} {x : String} {v : Value}
    {place : Option Place}
    (hx : p.expr scope (.name line x .load) = .ok (some (.literal (some line) v place))) :
    l.locals (privateName f.className x) = some (obj v) := by
  have hstart : f.scope.Holds obj f.className (f.body.flatMap Stmt.boundNames) ρ := by
    intro x v hx
    cases hx
  obtain ⟨before, hholds, rfl, hmem⟩ := hstart.places hone (List.Subset.refl _) hn hbefore
  have hs : s.boundNames ⊆ f.body.flatMap Stmt.boundNames :=
    fun y hy => List.mem_flatMap.mpr ⟨s, hmem, hy⟩
  obtain ⟨c, hget, rfl, -⟩ := Program.expr_name_eq_literal_iff.mp hx
  exact (hholds.inside hone hs hrun hl hvalue x c hget).2

section Samples

theorem runs_constant {V : Type} (obj : Value → V) (className : Option String) (line : Nat) (x : String)
    (v : Value) (ρ : Locals V) :
    Runs obj className (.statement (.assign line [.name line x .store] (.constant line v {}))) ρ
      [⟨false, .constant line v {}, ρ⟩] .normal
      (Function.update ρ (privateName className x) (some (obj v))) :=
  .assign .constant (.name (by decide) .nil)

theorem flat_name (line : Nat) (x : String) (use : NameUse) : (Expr.name line x use).Flat :=
  .of_children (fun _ _ _ h => by cases h) rfl rfl fun _ hc => by cases hc

/-- `probe(x)` -/
def probe (line : Nat) (x : String) : Expr :=
  .call ⟨line, .name line "probe" .load, [.name line x .load], []⟩

theorem flat_probe (line : Nat) (x : String) : (probe line x).Flat := by
  refine .of_children (fun _ _ _ h => by cases h) rfl rfl fun c hc => ?_
  have hcases : c = .name line "probe" .load ∨ c = .name line x .load := by
    simpa [probe, Expr.children, CallSite.parts] using hc
  obtain rfl | rfl := hcases <;> exact flat_name ..

theorem computes_probe {V : Type} (obj : Value → V) (line : Nat) (x : String) (v : V) (ρ : Locals V) :
    Computes obj [(false, probe line x)] ρ [⟨false, probe line x, ρ⟩] .normal :=
  .next (.other (flat_probe line x) (fun _ _ _ h => by cases h) v) .nil

/-- `for item in probe(level): mode = 2` -/
def patrolLoop : Stmt :=
  .forLoop 3 (.name 3 "item" .store) (probe 3 "level")
    [.assign 4 [.name 4 "mode" .store] (.constant 4 (.int 2) {})] []

/-- `level = 1`, the loop, and `probe(level)` -/
def patrol : Signature where
  key := "patrol"
  name := "patrol"
  className := none
  line := 1
  body := [.assign 2 [.name 2 "level" .store] (.constant 2 (.int 1) {}), patrolLoop,
    .expr 5 (probe 5 "level")]
  positional := []
  rest := none
  keywordOnly := []
  keywordRest := none
  defaults := {}

theorem boundNames_patrolLoop : "level" ∉ patrolLoop.boundNames := by
  simp [patrolLoop, probe, Stmt.boundNames, Stmt.boundNamesList, Expr.boundNames, Expr.children,
    CallSite.parts]

theorem runs_patrolLoop (ρ : Locals Value) :
    ∃ tr ρ', Runs id none (.statement patrolLoop) ρ tr .normal ρ' := by
  have hassign := runs_constant id none 4 "mode" (.int 2)
    (Function.update ρ (privateName none "item") (some .null))
  have hround : Runs id none (.rounds [] [.name 3 "item" .store] [_] []) ρ _ .normal _ :=
    .round .nil (.name (by decide) .nil) (.cons hassign .nil) (.inl rfl) (.roundsDone .nil .nil)
  exact ⟨_, _, .forLoop (computes_probe id 3 "level" .null ρ) hround⟩

theorem patrol_level : ∃ tr ρ₁ tr' l,
    Runs id none (.block (patrol.body.take 2)) (fun _ => none) tr .normal ρ₁ ∧
    Runs id none (.statement (.expr 5 (probe 5 "level"))) ρ₁ tr' .normal ρ₁ ∧
    l ∈ tr' ∧ l.locals "level" = some (Value.int 1) := by
  obtain ⟨tr, ρ₁, hloop⟩ := runs_patrolLoop
    (Function.update (fun _ => none) (privateName none "level") (some (.int 1)))
  have hbefore : Runs id none (.block (patrol.body.take 2)) (fun _ => none) _ .normal ρ₁ :=
    .cons (runs_constant id none 2 "level" (.int 1) _) (.cons hloop .nil)
  have hrun : Runs id none (.statement (.expr 5 (probe 5 "level"))) ρ₁ _ .normal ρ₁ :=
    .expr (computes_probe id 5 "level" .null ρ₁)
  have hlevel : ((patrol.scope.after (.assign 2 [.name 2 "level" .store]
      (.constant 2 (.int 1) {}))).forget patrolLoop.boundNames).constants.get? "level" =
      some ⟨.int 1, []⟩ := by
    rw [Scope.get?_forget, if_neg boundNames_patrolLoop]
    exact (OrderedMap.get?_insert ..).trans (if_pos rfl)
  have hx : (⟨{}⟩ : Program).expr _ (.name 5 "level" .load) = _ :=
    Program.expr_name_eq_literal_iff.mpr ⟨_, hlevel, rfl, rfl⟩
  refine ⟨_, ρ₁, _, _, hbefore, hrun, List.mem_cons_self, ?_⟩
  exact patrol.constant_holds ⟨{}⟩ (fun x _ y _ h => h) id (n := 2) rfl hbefore hrun List.mem_cons_self
    (fun _ => rfl) hx

/-- `__level = 1`, `_Gate__level = 2` and `probe(__level)`, in a method of `Gate` -/
def respelled : Signature where
  key := "Gate.run"
  name := "run"
  className := some "Gate"
  line := 1
  body := [.assign 2 [.name 2 "__level" .store] (.constant 2 (.int 1) {}),
    .assign 3 [.name 3 "_Gate__level" .store] (.constant 3 (.int 2) {}),
    .expr 4 (probe 4 "__level")]
  positional := []
  rest := none
  keywordOnly := []
  keywordRest := none
  defaults := {}

/-- A variable that is written in two ways holds another constant than the name is lowered to. -/
theorem respelled_misread : ∃ scope s, respelled.places[2]? = some (scope, s) ∧
    (∀ p : Program, p.expr scope (.name 4 "__level" .load) =
      .ok (some (.literal (some 4) (.int 1) (some [])))) ∧
    ∃ tr ρ₁ tr' l,
      Runs id (some "Gate") (.block (respelled.body.take 2)) (fun _ => none) tr .normal ρ₁ ∧
      Runs id (some "Gate") (.statement s) ρ₁ tr' .normal ρ₁ ∧ l ∈ tr' ∧
      l.locals (privateName (some "Gate") "__level") = some (Value.int 2) := by
  have hsame : privateName (some "Gate") "__level" = privateName (some "Gate") "_Gate__level" := by decide
  have hlevel : (((respelled.scope.after (.assign 2 [.name 2 "__level" .store]
      (.constant 2 (.int 1) {}))).after (.assign 3 [.name 3 "_Gate__level" .store]
      (.constant 3 (.int 2) {})))).constants.get? "__level" = some ⟨.int 1, []⟩ := by
    have hnot : "__level" ∉ (Stmt.assign 3 [.name 3 "_Gate__level" .store]
        (.constant 3 (.int 2) {})).boundNames := by
      simp [Stmt.boundNames, Expr.boundNames, Expr.children]
    refine (OrderedMap.get?_insert ..).trans ((if_neg (by decide)).trans ?_)
    rw [Scope.get?_forget, if_neg hnot]
    exact (OrderedMap.get?_insert ..).trans (if_pos rfl)
  refine ⟨_, _, rfl, fun p => Program.expr_name_eq_literal_iff.mpr ⟨_, hlevel, rfl, rfl⟩, _, _, _, _,
    .cons (runs_constant ..) (.cons (runs_constant id (some "Gate") 3 "_Gate__level" (.int 2) _) .nil),
    .expr (computes_probe id 4 "__level" .null _), List.mem_cons_self, ?_⟩
  simp only [hsame, Function.update_self, id]

end Samples

end CallTime.Source

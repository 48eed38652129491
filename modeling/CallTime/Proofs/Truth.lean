import Mathlib
import CallTime.Proofs.Literals

/-!
The truth values that conditions take.

The last test of a condition lets a value without a truth value pass; `not`, `and` and `or` do not. Main
statement: unless a table is looked into, evaluating a condition fails just if one of these three takes
the truth value of a value that has none, and such a value is always a literal of the condition or of an
argument.
-/

namespace CallTime

namespace Reading

/-- What an `and` or `or` tests, if evaluating its right operand tests `rest`. -/
def connectiveTests (decisive : Bool) (left : Option Object) (right : Reading) (rest : List Value) :
    List Value :=
  match left with
  | some a => match a.value.truth with
    | .ok t => if t = decisive then [a.value] else a.value :: rest
    | .error _ => [a.value]
  | none => match right with
    | .ok r => rest ++ r.toList.map Object.value
    | .error _ => rest

/-- What an operator tests, if evaluating its operands tests `first` and `rest`. -/
def binaryTests (op : String) (left right : Reading) (first rest : List Value) : List Value :=
  match left with
  | .error _ => first
  | .ok l => first ++
    if op = "and" then connectiveTests false l right rest
    else if op = "or" then connectiveTests true l right rest
    else if op = "not" then l.toList.map Object.value
    else rest

end Reading

namespace Artifact

mutual

def testsWith (bound : Info → Option Int → Reading) (tests : Info → Option Int → List Value) :
    Artifact → List Value
  | .reference info _ parameter => tests info parameter
  | .binary _ op left right => Reading.binaryTests op (valueOfOption bound left)
      (valueOfOption bound right) (testsOfOption bound tests left) (testsOfOption bound tests right)
  | _ => []
termination_by structural a => a

def testsOfOption (bound : Info → Option Int → Reading) (tests : Info → Option Int → List Value) :
    Option Artifact → List Value
  | none => []
  | some a => a.testsWith bound tests
termination_by structural a => a

end

def closedTests (a : Artifact) : List Value := a.testsWith unbound fun _ _ => []

/-- What is tested when a reference is evaluated: the argument is evaluated anew every time. -/
def testsOf (arguments : List Artifact) (info : Info) : Option Int → List Value
  | none => []
  | some index => match argumentAt arguments index with
    | .ok (some a) => if a.id = info.id then [] else a.closedTests
    | _ => []

def conditionTests (arguments : List Artifact) (condition : Option Artifact) : List Value :=
  testsOfOption (boundTo arguments) (testsOf arguments) condition

def isConnective : Artifact → Bool
  | .binary _ op _ _ => op = "and" ∨ op = "or" ∨ op = "not"
  | _ => false

def isTable : Artifact → Bool
  | .literal _ v _ => v.kind = .table
  | _ => false

end Artifact

namespace Reading

/-- The reading fails just as the first of the tested values does that has no truth value. These values,
and that of the object it gives, have `T`. -/
structure Tests (T : Value → Prop) (x : Reading) (vs : List Value) : Prop where
  fails : ∀ e, x = .error e ↔ ∃ v ∈ vs, v.truth = .error e
  tested : ∀ v ∈ vs, T v
  gives : ∀ o, x = .ok (some o) → T o.value

variable {T : Value → Prop} {x y left right : Reading} {vs first rest : List Value}

theorem tests_none : Tests T (.ok none) [] := by
  constructor <;> simp

theorem tests_some {o : Object} (ho : T o.value) : Tests T (.ok (some o)) [] := by
  constructor <;> simp [ho]

theorem Tests.not_fails (hx : Tests T x vs) {r : Option Object} (hr : x = .ok r) (e : Fault) :
    ¬∃ v ∈ vs, v.truth = .error e := by
  rw [← hx.fails e, hr]
  simp

/-- Where the values before all have truth values, it is the values after that decide. -/
theorem Tests.after (hx : Tests T x first) {r : Option Object} (hr : x = .ok r) (hy : Tests T y vs) :
    Tests T y (first ++ vs) where
  fails e := by
    have hfirst := hx.not_fails hr e
    rw [hy.fails e]
    simp only [List.mem_append, or_and_right, exists_or, hfirst, false_or]
  tested v hv := (List.mem_append.mp hv).elim (hx.tested v) (hy.tested v)
  gives := hy.gives

theorem tests_refused {a : Value} (ha : T a) {e : Fault} (he : a.truth = .error e) :
    Tests T (.error e) [a] := by
  constructor <;> simp [ha, he]

theorem Tests.cons {a : Value} (ha : T a) {t : Bool} (ht : a.truth = .ok t) (hy : Tests T y vs) :
    Tests T y (a :: vs) := by
  have htested : Tests T (.ok none) [a] := by
    constructor <;> simp [ha, ht]
  exact htested.after rfl hy

theorem tests_connective (decisive : Bool) {l : Option Object} (hl : Known T l)
    (hr : Tests T right rest) :
    Tests T (connective decisive l right) (connectiveTests decisive l right rest) := by
  cases l with
  | some a =>
    have ha : T a.value := hl a rfl
    cases ht : a.value.truth with
    | error e =>
      simp only [connective, connectiveTests, ht]
      exact tests_refused ha ht
    | ok t =>
      rw [connective_of_ok ht]
      simp only [connectiveTests, ht]
      split
      · exact (tests_some ha).cons ha ht
      · exact hr.cons ha ht
  | none =>
    -- with nothing known on the left, it is the right operand that is tested, once it is evaluated
    cases right with
    | error e => exact hr
    | ok r =>
      refine hr.after rfl ?_
      cases r with
      | none => exact tests_none
      | some b =>
        have hb : T b.value := hr.gives b rfl
        cases ht : b.value.truth with
        | error e =>
          change Tests T (b.value.truth >>= _) [b.value]
          rw [ht]
          exact tests_refused hb ht
        | ok t =>
          rw [connective_none ht]
          refine Tests.cons hb ht ?_
          split
          · exact tests_some hb
          · exact tests_none

/-- Ordinary values have `T`, and what has `T` is no table. -/
structure Untabled (T : Value → Prop) : Prop where
  ordinary : ∀ v : Value, v.Ordinary → T v
  kind_ne : ∀ v, T v → v.kind ≠ .table

theorem tests_negation (hT : Untabled T) {l : Option Object} (hl : Known T l) :
    Tests T (negation l) (l.toList.map Object.value) := by
  cases l with
  | none => exact tests_none
  | some a =>
    have ha : T a.value := hl a rfl
    rw [negation]
    cases ht : a.value.truth with
    | error e => exact tests_refused ha ht
    | ok t => exact Tests.cons ha ht (tests_some (hT.ordinary _ trivial))

theorem tests_operation (hT : Untabled T) (op : String) (l : Option Object)
    (hr : Tests T right rest) : Tests T (do operation op l (← right)) rest := by
  cases right with
  | error e =>
    refine ⟨hr.fails, hr.tested, fun o ho => ?_⟩
    cases ho
  | ok r =>
    -- it is only in a table that an operator looks in vain
    have hkey : ∀ b ∈ r, b.value.kind = .table → False := fun b hb =>
      hT.kind_ne _ (hr.gives b (congrArg Except.ok hb))
    have hmeets := meets_iff.mp (meets_operation (E := fun _ => False) hT.ordinary op l hkey)
    refine ⟨fun e => ⟨fun he => (hmeets.1 e he).elim, fun he => ?_⟩, hr.tested, fun o ho => ?_⟩
    · cases (hr.fails e).mpr he
    · exact hmeets.2 _ ho o rfl

theorem tests_binary (hT : Untabled T) (op : String) (hl : Tests T left first)
    (hr : Tests T right rest) :
    Tests T (binary op left right) (binaryTests op left right first rest) := by
  cases left with
  | error e =>
    refine ⟨hl.fails, hl.tested, fun o ho => ?_⟩
    cases ho
  | ok l =>
    refine hl.after rfl ?_
    have hl : Known T l := fun o ho => hl.gives o (congrArg Except.ok ho)
    change Tests T (if op = "and" then conjunction l right else _) _
    split
    · rw [conjunction_eq]
      exact tests_connective false hl hr
    · split
      · rw [disjunction_eq]
        exact tests_connective true hl hr
      · split
        · exact tests_negation hT hl
        · exact tests_operation hT op l hr

end Reading

namespace Artifact

open Reading (Tests Untabled tests_none tests_some tests_binary)

variable {T : Value → Prop} {bound : Info → Option Int → Reading}
  {tests : Info → Option Int → List Value}

mutual

theorem tests_valueWith (hT : Untabled T) (a : Artifact)
    (hr : ∀ info name p, .reference info name p ∈ a.walk → Tests T (bound info p) (tests info p))
    (hl : ∀ info v place, .literal info v place ∈ a.walk → T v) :
    Tests T (a.valueWith bound) (a.testsWith bound tests) := by
  cases a with
  | reference info name parameter => exact hr info name parameter (mem_walk_self _)
  | literal info value place => exact tests_some (hl info value place (mem_walk_self _))
  | binary info op left right =>
    refine tests_binary hT op (tests_valueOfOption hT left ?_ ?_) (tests_valueOfOption hT right ?_ ?_)
    · exact fun i n p hm => hr i n p (mem_walk_operand (.inl hm))
    · exact fun i v p hm => hl i v p (mem_walk_operand (.inl hm))
    · exact fun i n p hm => hr i n p (mem_walk_operand (.inr hm))
    · exact fun i v p hm => hl i v p (mem_walk_operand (.inr hm))
  | _ => exact tests_none
termination_by structural a

theorem tests_valueOfOption (hT : Untabled T) (a : Option Artifact)
    (hr : ∀ info name p, .reference info name p ∈ walkFrom a.toList →
      Tests T (bound info p) (tests info p))
    (hl : ∀ info v place, .literal info v place ∈ walkFrom a.toList → T v) :
    Tests T (valueOfOption bound a) (testsOfOption bound tests a) := by
  cases a with
  | none => exact tests_none
  | some a => exact tests_valueWith hT a hr hl
termination_by structural a

end

theorem tests_closedValue (hT : Untabled T) {a : Artifact} (h : a.Upright T) :
    Tests T a.closedValue a.closedTests := by
  refine tests_valueWith hT a (fun info name p hm => ?_) h.literal
  cases p with
  | none => exact tests_none
  | some index =>
    rw [unbound, argumentAt_of_nonneg _ (h.reference info name index hm)]
    exact tests_none

theorem tests_conditionValue (hT : Untabled T) {condition : Option Artifact}
    (hc : ∀ c ∈ condition, c.Upright T) {arguments : List Artifact}
    (ha : ∀ a ∈ arguments, a.Upright T) :
    Tests T (conditionValue arguments condition) (conditionTests arguments condition) := by
  cases condition with
  | none => exact tests_none
  | some c =>
    have hc : c.Upright T := hc c rfl
    refine tests_valueWith hT c (fun info name p hm => ?_) hc.literal
    cases p with
    | none => exact tests_none
    | some index =>
      rw [boundTo, testsOf, argumentAt_of_nonneg _ (hc.reference info name index hm)]
      cases hi : arguments[index.toNat]? with
      | none => exact tests_none
      | some a =>
        change Tests T (if a.id = info.id then _ else _) (if a.id = info.id then _ else _)
        split
        · exact tests_none
        · exact tests_closedValue hT (ha a (List.mem_of_getElem? hi))

theorem branchPossible_eq_error_iff {condition : Option Artifact} {taken : Bool}
    {arguments : List Artifact} {e : Fault} :
    branchPossible condition taken arguments = .error e ↔
      conditionValue arguments condition = .error e := by
  constructor
  · intro h
    obtain h | ⟨r, -, h⟩ := error_of_bind h
    · exact h
    · cases r with
      | none => cases h
      | some v =>
        simp only at h
        split at h <;> cases h
  · intro h
    rw [branchPossible, h]
    rfl

mutual

theorem testsWith_eq_nil (a : Artifact)
    (hr : ∀ info name p, .reference info name p ∈ a.walk → tests info p = [])
    (hc : ∀ n ∈ a.walk, n.isConnective = false) : a.testsWith bound tests = [] := by
  cases a with
  | reference info name parameter => exact hr info name parameter (mem_walk_self _)
  | binary info op left right =>
    have hop : ¬(op = "and" ∨ op = "or" ∨ op = "not") :=
      of_decide_eq_false (hc _ (mem_walk_self _))
    rw [not_or, not_or] at hop
    have hleft : testsOfOption bound tests left = [] := testsOfOption_eq_nil left
      (fun i n p hm => hr i n p (mem_walk_operand (.inl hm)))
      fun n hm => hc n (mem_walk_operand (.inl hm))
    have hright : testsOfOption bound tests right = [] := testsOfOption_eq_nil right
      (fun i n p hm => hr i n p (mem_walk_operand (.inr hm)))
      fun n hm => hc n (mem_walk_operand (.inr hm))
    rw [testsWith, hleft, hright]
    unfold Reading.binaryTests
    split
    · rfl
    · rw [if_neg hop.1, if_neg hop.2.1, if_neg hop.2.2, List.append_nil]
  | _ => rfl
termination_by structural a

theorem testsOfOption_eq_nil (a : Option Artifact)
    (hr : ∀ info name p, .reference info name p ∈ walkFrom a.toList → tests info p = [])
    (hc : ∀ n ∈ walkFrom a.toList, n.isConnective = false) : testsOfOption bound tests a = [] := by
  cases a with
  | none => rfl
  | some a => exact testsWith_eq_nil a hr hc
termination_by structural a

end

theorem conditionTests_eq_nil {condition : Option Artifact} {arguments : List Artifact}
    (hc : ∀ n ∈ walkFrom (condition.toList ++ arguments), n.isConnective = false) :
    conditionTests arguments condition = [] := by
  rw [walkFrom_append] at hc
  refine testsOfOption_eq_nil condition (fun info name p _ => ?_)
    fun n hn => hc n (List.mem_append_left _ hn)
  cases p with
  | none => rfl
  | some index =>
    rw [testsOf]
    split
    · next a ha =>
      split
      · rfl
      · refine testsWith_eq_nil a (fun _ _ _ _ => rfl) fun n hn => hc n (List.mem_append_right _ ?_)
        exact mem_walkFrom_of_mem_walk (mem_walkFrom_of_mem (mem_of_argumentAt ha)) hn
    · rfl

/-- Where no literal is a table, a branch is found possible or not, unless `not`, `and` or `or` comes upon a
value without a truth value first: then the evaluation fails as the test of that value does. Such a value
is a literal of the condition or of an argument, and without any of the three the evaluation never
fails. -/
theorem branchPossible_ok_iff (condition : Option Artifact) (taken : Bool) (arguments : List Artifact)
    (front : ∀ n ∈ walkFrom (condition.toList ++ arguments), n.fromFront = true)
    (untabled : ∀ n ∈ walkFrom (condition.toList ++ arguments), n.isTable = false) :
    ((∃ b, branchPossible condition taken arguments = .ok b) ↔
      ∀ v ∈ conditionTests arguments condition, v.Testable) ∧
    (∀ e, branchPossible condition taken arguments = .error e ↔
      ∃ v ∈ conditionTests arguments condition, v.truth = .error e) ∧
    (∀ v ∈ conditionTests arguments condition, v.Testable ∨
      ∃ info place, .literal info v place ∈ walkFrom (condition.toList ++ arguments)) ∧
    ((∀ n ∈ walkFrom (condition.toList ++ arguments), n.isConnective = false) →
      ∃ b, branchPossible condition taken arguments = .ok b) := by
  -- operators give ordinary values, so one without a truth value was a literal
  let T (v : Value) : Prop := v.Ordinary ∨
    ∃ info place, .literal info v place ∈ walkFrom (condition.toList ++ arguments)
  have hT : Untabled T := by
    refine ⟨fun _ => .inl, fun v hv => ?_⟩
    obtain hv | ⟨info, place, hm⟩ := hv
    · exact hv.kind_ne
    · exact of_decide_eq_false (untabled _ hm)
  have upright : ∀ a ∈ condition.toList ++ arguments, a.Upright T := by
    intro a ha
    have hwalk : ∀ n ∈ a.walk, n ∈ walkFrom (condition.toList ++ arguments) :=
      fun n hn => mem_walkFrom_of_mem_walk (mem_walkFrom_of_mem ha) hn
    exact ⟨fun info name index hm => of_decide_eq_true (front _ (hwalk _ hm)),
      fun info v place hm => .inr ⟨info, place, hwalk _ hm⟩⟩
  have htests : Tests T (conditionValue arguments condition) (conditionTests arguments condition) :=
    tests_conditionValue hT
      (fun c hc => upright c (List.mem_append_left _ (Option.mem_toList.mpr hc)))
      fun a ha => upright a (List.mem_append_right _ ha)
  have hfails (e : Fault) : branchPossible condition taken arguments = .error e ↔
      ∃ v ∈ conditionTests arguments condition, v.truth = .error e :=
    branchPossible_eq_error_iff.trans (htests.fails e)
  have hok : (∃ b, branchPossible condition taken arguments = .ok b) ↔
      ∀ v ∈ conditionTests arguments condition, v.Testable := by
    constructor
    · rintro ⟨b, hb⟩ v hv
      cases ht : v.truth with
      | ok t => exact ⟨t, ht⟩
      | error e => cases hb.symm.trans ((hfails e).mpr ⟨v, hv, ht⟩)
    · intro h
      cases hb : branchPossible condition taken arguments with
      | ok b => exact ⟨b, rfl⟩
      | error e =>
        obtain ⟨v, hv, he⟩ := (hfails e).mp hb
        obtain ⟨t, ht⟩ := h v hv
        cases ht.symm.trans he
  refine ⟨hok, hfails, fun v hv => (htests.tested v hv).imp_left Value.Ordinary.testable,
    fun hc => hok.mpr ?_⟩
  rw [conditionTests_eq_nil hc]
  exact List.forall_mem_nil _

/-- The condition is `x < 1 and y`. It is given no value for `x`, and for `y` one without a truth value. -/
def guardCondition : Artifact :=
  .binary ⟨0, none⟩ "and"
    (some (.binary ⟨1, none⟩ "<" (some (.reference ⟨2, none⟩ "x" (some 0)))
      (some (.literal ⟨3, none⟩ (.int 1)))))
    (some (.reference ⟨4, none⟩ "y" (some 1)))

def guardArguments : List Artifact :=
  [.reference ⟨5, none⟩ "z" none, .literal ⟨6, none⟩ (.stubborn .wrongValue 0)]

theorem branchPossible_guardCondition :
    (∀ n ∈ walkFrom (guardCondition :: guardArguments), n.fromFront = true ∧ n.isTable = false) ∧
      branchPossible (some guardCondition) true guardArguments = .error .wrongValue ∧
      ∃ b, branchPossible (some guardCondition) true [] = .ok b := by
  have nodes : ∀ n ∈ walkFrom (guardCondition :: guardArguments),
      n.fromFront = true ∧ n.isTable = false := by decide +kernel
  have nodes' : ∀ n ∈ walkFrom [guardCondition], n.fromFront = true ∧ n.isTable = false := by
    decide +kernel
  have tests : conditionTests guardArguments (some guardCondition) = [.stubborn .wrongValue 0] := rfl
  have tests' : conditionTests [] (some guardCondition) = [] := rfl
  refine ⟨nodes, ?_, ?_⟩
  · refine ((branchPossible_ok_iff (some guardCondition) true guardArguments
      (fun n hn => (nodes n hn).1) fun n hn => (nodes n hn).2).2.1 _).mpr ?_
    rw [tests]
    exact ⟨_, List.mem_singleton_self _, rfl⟩
  · refine (branchPossible_ok_iff (some guardCondition) true [] (fun n hn => (nodes' n hn).1)
      fun n hn => (nodes' n hn).2).1.mpr ?_
    rw [tests']
    exact List.forall_mem_nil _

def stubbornCondition : Artifact :=
  .binary ⟨0, none⟩ "not" (some (.literal ⟨1, none⟩ (.stubborn .wrongKind 0))) none

/-- By itself the object would allow both outcomes. -/
theorem branchPossible_stubbornCondition :
    branchPossible (some stubbornCondition) true [] = .error .wrongKind ∧
      branchPossible (some stubbornCondition) false [] = .error .wrongKind :=
  ⟨rfl, rfl⟩

end Artifact

end CallTime

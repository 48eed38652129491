import CallTime.Path.Basic
import CallTime.Proofs.Walk

/-!
Conditions that look at the values of objects only.

Main statement: unless an expression asks whether two objects are one, its value depends on the values
of the references in it and not on which objects have these values.
-/

namespace CallTime

/-- An `is` or an `is not`: it can tell objects of equal values apart. -/
def Artifact.asksIdentity : Artifact → Bool
  | .binary _ op _ _ => match Operator.ofText? op with
    | some (.identity _) => true
    | _ => false
  | _ => false

def Object.bare (o : Object) : Object := ⟨o.value, .made⟩

namespace Reading

/-- What can be told of a reading: the object, or its value alone. -/
def view (identity : Bool) (r : Reading) : Reading :=
  r.map (Option.map fun o => if identity then o else o.bare)

variable {identity : Bool} {l r s : Reading} {op : String}

@[simp]
theorem view_true (r : Reading) : r.view true = r := by
  rcases r with e | _ | o <;> rfl

@[simp]
theorem view_view (r : Reading) : (r.view identity).view identity = r.view identity := by
  cases identity <;> rcases r with e | _ | o <;> rfl

theorem value_view (r : Reading) : (r.view identity).value = r.value := by
  cases identity <;> rcases r with e | _ | o <;> rfl

theorem value_eq_of_view (h : r.view identity = s.view identity) : r.value = s.value := by
  rw [← value_view r, h, value_view]

theorem view_of_value (h : r.value = s.value) : r.view false = s.view false := by
  rcases r with e | _ | ⟨v, o⟩ <;> rcases s with e' | _ | ⟨w, o'⟩ <;> cases h <;> rfl

theorem eq_error_of_value {e : Fault} (h : r.value = s.value) (hr : r = .error e) : s = .error e := by
  subst hr
  cases s with
  | error => cases h; rfl
  | ok => cases h

theorem exists_of_value {o : Object} (h : r.value = s.value) (hr : r = .ok (some o)) :
    ∃ o', s = .ok (some o') ∧ o'.value = o.value := by
  subst hr
  rcases s with e | _ | o'
  · cases h
  · cases h
  · exact ⟨o', rfl, (Option.some.inj (Except.ok.inj h)).symm⟩

theorem view_conjunction (a : Option Object) (r : Reading) :
    (conjunction (a.map Object.bare) (r.view false)).view false = (conjunction a r).view false := by
  cases a with
  | some a =>
    simp only [conjunction, Option.map_some, Object.bare]
    rcases a.value.truth with e | _ | _
    · rfl
    · rfl
    · exact view_view r
  | none =>
    rcases r with e | _ | b
    · rfl
    · rfl
    · obtain ⟨v, o⟩ := b
      change (conjunction none (.ok (some ⟨v, .made⟩))).view false = _
      simp only [conjunction, bind, Except.bind]
      rcases v.truth with e | _ | _ <;> rfl

theorem view_disjunction (a : Option Object) (r : Reading) :
    (disjunction (a.map Object.bare) (r.view false)).view false = (disjunction a r).view false := by
  cases a with
  | some a =>
    simp only [disjunction, Option.map_some, Object.bare]
    rcases a.value.truth with e | _ | _
    · rfl
    · exact view_view r
    · rfl
  | none =>
    rcases r with e | _ | b
    · rfl
    · rfl
    · obtain ⟨v, o⟩ := b
      change (disjunction none (.ok (some ⟨v, .made⟩))).view false = _
      simp only [disjunction, bind, Except.bind]
      rcases v.truth with e | _ | _ <;> rfl

theorem view_negation (a : Option Object) :
    (negation (a.map Object.bare)).view false = (negation a).view false := by
  cases a <;> rfl

theorem view_operation (h : ∀ expected, Operator.ofText? op ≠ some (.identity expected))
    (a b : Option Object) :
    (operation op (a.map Object.bare) (b.map Object.bare)).view false =
      (operation op a b).view false := by
  cases a with
  | none => rfl
  | some a =>
    cases b with
    | none => rfl
    | some b =>
      simp only [operation, Option.map_some]
      cases ho : Operator.ofText? op with
      | none => rfl
      | some o =>
        cases o with
        | identity expected => exact absurd ho (h expected)
        | onValues o =>
          simp only [Operator.apply, Object.bare]
          rcases o.apply a.value b.value with e | v
          · cases e <;> rfl
          · rfl

theorem view_binary (h : identity = true ∨ ∀ expected, Operator.ofText? op ≠ some (.identity expected))
    (l r : Reading) : (binary op (l.view identity) (r.view identity)).view identity =
      (binary op l r).view identity := by
  cases identity with
  | true => simp only [view_true]
  | false =>
    have hop := h.resolve_left Bool.false_ne_true
    cases l with
    | error e => rfl
    | ok a =>
      change (binary op (.ok (a.map Object.bare)) (r.view false)).view false = _
      simp only [binary, bind, Except.bind]
      split
      · exact view_conjunction a r
      · split
        · exact view_disjunction a r
        · split
          · exact view_negation a
          · cases r with
            | error e => rfl
            | ok b => exact view_operation hop a b

end Reading

namespace Artifact

variable {bound bound' : Info → Option Int → Reading} {identity : Bool}

theorem mem_walk_operand {info : Info} {op : String} {left right : Option Artifact} {a : Artifact}
    (h : a ∈ walkFrom left.toList ∨ a ∈ walkFrom right.toList) :
    a ∈ (Artifact.binary info op left right).walk := by
  rw [walk_eq, children, walkFrom_append]
  exact List.mem_cons_of_mem _ (List.mem_append.mpr h)

mutual

theorem view_valueWith_congr (a : Artifact)
    (hid : identity = true ∨ ∀ n ∈ a.walk, n.asksIdentity = false)
    (h : ∀ info name index, .reference info name index ∈ a.walk →
      (bound info index).view identity = (bound' info index).view identity) :
    (a.valueWith bound).view identity = (a.valueWith bound').view identity := by
  cases a with
  | reference info name index => exact h info name index (mem_walk_self _)
  | binary info op left right =>
    have hl := view_valueOfOption_congr left
      (hid.imp_right fun hid n hn => hid n (mem_walk_operand (.inl hn)))
      fun i name index hm => h i name index (mem_walk_operand (.inl hm))
    have hr := view_valueOfOption_congr right
      (hid.imp_right fun hid n hn => hid n (mem_walk_operand (.inr hn)))
      fun i name index hm => h i name index (mem_walk_operand (.inr hm))
    have hop : identity = true ∨ ∀ expected, Operator.ofText? op ≠ some (.identity expected) := by
      refine hid.imp_right fun hid expected ho => ?_
      have hn := hid _ (mem_walk_self _)
      rw [asksIdentity, ho] at hn
      cases hn
    rw [valueWith, valueWith, ← Reading.view_binary hop, hl, hr, Reading.view_binary hop]
  | _ => rfl
termination_by structural a

theorem view_valueOfOption_congr (a : Option Artifact)
    (hid : identity = true ∨ ∀ n ∈ walkFrom a.toList, n.asksIdentity = false)
    (h : ∀ info name index, .reference info name index ∈ walkFrom a.toList →
      (bound info index).view identity = (bound' info index).view identity) :
    (valueOfOption bound a).view identity = (valueOfOption bound' a).view identity := by
  cases a with
  | none => rfl
  | some a => exact view_valueWith_congr a hid h
termination_by structural a

end

theorem valueWith_congr (a : Artifact)
    (h : ∀ info name index, .reference info name index ∈ a.walk →
      bound info index = bound' info index) : a.valueWith bound = a.valueWith bound' := by
  have hv := view_valueWith_congr a (.inl rfl) fun info name index hm =>
    congrArg (Reading.view true) (h info name index hm)
  simpa only [Reading.view_true] using hv

theorem valueOfOption_congr (a : Option Artifact)
    (h : ∀ info name index, .reference info name index ∈ walkFrom a.toList →
      bound info index = bound' info index) : valueOfOption bound a = valueOfOption bound' a := by
  have hv := view_valueOfOption_congr a (.inl rfl) fun info name index hm =>
    congrArg (Reading.view true) (h info name index hm)
  simpa only [Reading.view_true] using hv

/-- Whether a branch can have the outcome `taken` when its condition has the value, if it has one. -/
def allows (taken : Bool) : Option Value → Bool
  | none => true
  | some v => match v.truth with
    | .ok b => b == taken
    | .error _ => true

theorem branchPossible_eq (condition : Option Artifact) (taken : Bool) (a : List Artifact) :
    branchPossible condition taken a = (conditionValue a condition).value.map (allows taken) := by
  unfold branchPossible
  rcases conditionValue a condition with e | _ | ⟨v, o⟩
  · rfl
  · rfl
  · change _ = Except.ok (allows taken (some v))
    simp only [bind, Except.bind, allows]
    cases v.truth <;> rfl

theorem branchPossible_of_view {condition : Option Artifact} {a b : List Artifact}
    (h : (conditionValue a condition).view identity = (conditionValue b condition).view identity)
    (taken : Bool) : branchPossible condition taken a = branchPossible condition taken b := by
  rw [branchPossible_eq, branchPossible_eq, Reading.value_eq_of_view h]

end Artifact

end CallTime

import CallTime.Value.Operator

/-!
Objects of nodes that nothing else refers to.

A node that was built for a number is reached only through the tree it is part of, so its object might as
well be made anew each time. Main statement: operators give the same results for such objects, `is` and
`is not` included, unless both operands come from the same node.
-/

namespace CallTime

namespace Origin

/-- The node whose literal the object is, or is part of. -/
def node? : Origin → Option Nat
  | .node id => some id
  | .part whole _ => whole.node?
  | _ => none

/-- Forgets the nodes from `lo` on and below `hi`. -/
def outside (lo hi : Nat) : Origin → Origin
  | .node id => if lo ≤ id ∧ id < hi then .made else .node id
  | .part whole index => .part (whole.outside lo hi) index
  | origin => origin

variable {lo hi : Nat} {o : Origin}

theorem outside_eq (h : ∀ id, o.node? = some id → id < lo ∨ hi ≤ id) : o.outside lo hi = o := by
  induction o with
  | node id =>
    have hid := h id rfl
    exact if_neg (by omega)
  | part whole index ih => exact congrArg (part · index) (ih h)
  | _ => rfl

/-- What a part of a forgotten node has become does not last. -/
theorem outside_eq_of_lasts (h : (o.outside lo hi).lasts = true) : o.outside lo hi = o := by
  induction o with
  | node id =>
    by_cases hid : lo ≤ id ∧ id < hi
    · rw [outside, if_pos hid] at h
      cases h
    · exact if_neg hid
  | part whole index ih => exact congrArg (part · index) (ih h)
  | _ => rfl

theorem outside_eq_digit : o.outside lo hi = .digit ↔ o = .digit := by
  cases o with
  | node id =>
    rw [outside]
    split <;> simp
  | _ => simp [outside]

end Origin

namespace Object

def outside (lo hi : Nat) (o : Object) : Object := ⟨o.value, o.origin.outside lo hi⟩

variable {lo hi : Nat} {a b : Object}

theorem isUnique_outside (o : Object) : (o.outside lo hi).isUnique = o.isUnique := by
  have hdigit : ((o.origin.outside lo hi) != .digit) = (o.origin != .digit) := by
    rw [Bool.eq_iff_iff, bne_iff_ne, bne_iff_ne, Ne, Origin.outside_eq_digit]
  rw [isUnique, isUnique, outside, hdigit]

theorem identical_outside
    (h : ∀ id, a.origin.node? = some id → b.origin.node? = some id → id < lo ∨ hi ≤ id) :
    (a.outside lo hi).identical (b.outside lo hi) = a.identical b := by
  have horigin : ((a.outside lo hi).origin.lasts &&
      (a.outside lo hi).origin == (b.outside lo hi).origin) =
        (a.origin.lasts && a.origin == b.origin) := by
    rw [Bool.eq_iff_iff, Bool.and_eq_true, Bool.and_eq_true, beq_iff_eq, beq_iff_eq]
    constructor
    · rintro ⟨hl, he⟩
      have ha : a.origin.outside lo hi = a.origin := Origin.outside_eq_of_lasts hl
      have hb : b.origin.outside lo hi = b.origin := by
        refine Origin.outside_eq_of_lasts ?_
        change (b.outside lo hi).origin.lasts = true
        rw [← he, hl]
      exact ⟨ha ▸ hl, ha.symm.trans (he.trans hb)⟩
    · rintro ⟨hl, he⟩
      have ha : a.origin.outside lo hi = a.origin :=
        Origin.outside_eq fun id hid => h id hid (he ▸ hid)
      exact ⟨by rw [outside, ha, hl], by rw [outside, outside, he]⟩
  rw [identical, identical, horigin, isUnique_outside, isUnique_outside]
  rfl

/-- The values decide whether the result is one of the operands, a part of the second one, or a new
object. -/
inductive Chosen (choose : Origin → Origin → Origin) : Prop
  | left (h : ∀ o p, choose o p = o)
  | right (h : ∀ o p, choose o p = p)
  | part (index : Nat) (h : ∀ o p, choose o p = .part p index)
  | apart (origin : Origin) (hn : origin.node? = none) (h : ∀ o p, choose o p = origin)

theorem chosen_sum (v w : Value) : Chosen fun o p => sum ⟨v, o⟩ ⟨w, p⟩ := by
  have hchoose (left right : Bool) :
      Chosen fun o p => if right then o else if left then p else .made := by
    cases right with
    | true => exact .left fun _ _ => rfl
    | false =>
      cases left with
      | true => exact .right fun _ _ => rfl
      | false => exact .apart .made rfl fun _ _ => rfl
  cases v <;> cases w <;> first | exact hchoose _ _ | exact .apart .made rfl fun _ _ => rfl

theorem chosen_product (v w : Value) : Chosen fun o p => product ⟨v, o⟩ ⟨w, p⟩ := by
  simp only [product]
  by_cases hl : (repeatable v && w.count? = some 1) = true
  · exact .left fun o p => if_pos hl
  · by_cases hr : (repeatable w && v.count? = some 1) = true
    · exact .right fun o p => by rw [if_neg hl, if_pos hr]
    · exact .apart .made rfl fun o p => by rw [if_neg hl, if_neg hr]

theorem chosen_kept (v w : Value) (k : Kept) : Chosen fun o p => keptOrigin ⟨v, o⟩ ⟨w, p⟩ k := by
  cases k with
  | template => exact .left fun _ _ => rfl
  | argument => exact .right fun _ _ => rfl
  | item index => exact .part index fun _ _ => rfl
  | word b => exact .apart (.word b) rfl fun _ _ => rfl
  | digit => exact .apart .digit rfl fun _ _ => rfl

theorem chosen_remainder (v w : Value) : Chosen fun o p => remainder ⟨v, o⟩ ⟨w, p⟩ := by
  simp only [remainder]
  split
  · split
    · exact chosen_kept _ _ _
    · exact .apart .made rfl fun _ _ => rfl
  · next m n =>
    by_cases hk : keepsDividend m n = true
    · exact .left fun o p => if_pos hk
    · exact .apart .made rfl fun o p => if_neg hk
  · exact .apart .made rfl fun _ _ => rfl

theorem chosen_origin (op : ValueOperator) (v w : Value) :
    Chosen fun o p => op.origin ⟨v, o⟩ ⟨w, p⟩ := by
  cases op with
  | add => exact chosen_sum v w
  | mul => exact chosen_product v w
  | mod => exact chosen_remainder v w
  | _ => exact .apart .made rfl fun _ _ => rfl

theorem origin_outside (op : ValueOperator) (a b : Object) :
    op.origin (a.outside lo hi) (b.outside lo hi) = (op.origin a b).outside lo hi := by
  cases chosen_origin op a.value b.value with
  | left h => exact (h _ _).trans (congrArg (Origin.outside lo hi) (h _ _)).symm
  | right h => exact (h _ _).trans (congrArg (Origin.outside lo hi) (h _ _)).symm
  | part index h => exact (h _ _).trans (congrArg (Origin.outside lo hi) (h _ _)).symm
  | apart origin hn h =>
    have hout : origin.outside lo hi = origin :=
      Origin.outside_eq fun id hid => by rw [hn] at hid; cases hid
    exact (h _ _).trans (hout.symm.trans (congrArg (Origin.outside lo hi) (h _ _)).symm)

theorem node?_origin (op : ValueOperator) (a b : Object) {id : Nat}
    (h : (op.origin a b).node? = some id) : a.origin.node? = some id ∨ b.origin.node? = some id := by
  cases chosen_origin op a.value b.value with
  | left hc => exact .inl ((congrArg Origin.node? (hc a.origin b.origin)).symm.trans h)
  | right hc => exact .inr ((congrArg Origin.node? (hc a.origin b.origin)).symm.trans h)
  | part index hc => exact .inr ((congrArg Origin.node? (hc a.origin b.origin)).symm.trans h)
  | apart origin hn hc =>
    have := (congrArg Origin.node? (hc a.origin b.origin)).symm.trans h
    rw [hn] at this
    cases this

/-- An operator gives for the operands what it gives for them without the forgotten nodes. -/
theorem apply_outside {op : Operator} {c : Object}
    (hd : ∀ id, a.origin.node? = some id → b.origin.node? = some id → id < lo ∨ hi ≤ id)
    (h : op.apply (a.outside lo hi) (b.outside lo hi) = .ok c) :
    ∃ c', op.apply a b = .ok c' ∧ c = c'.outside lo hi ∧
      ∀ id, c'.origin.node? = some id → a.origin.node? = some id ∨ b.origin.node? = some id := by
  cases op with
  | identity expected =>
    rw [Operator.apply, identical_outside hd] at h
    exact ⟨_, rfl, (Except.ok.inj h).symm, fun id hid => by cases hid⟩
  | onValues op =>
    simp only [Operator.apply, outside, bind, Except.bind] at h ⊢
    cases hv : op.apply a.value b.value with
    | error e =>
      rw [hv] at h
      cases h
    | ok v =>
      rw [hv] at h
      cases h
      refine ⟨⟨v, op.origin a b⟩, rfl, ?_, fun id => node?_origin op a b⟩
      exact congrArg (Object.mk v) (origin_outside op a b)

end Object

end CallTime

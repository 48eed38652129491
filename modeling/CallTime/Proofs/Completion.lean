import Mathlib
import CallTime.Proofs.Faults

/-!
Conditions under arguments of which more becomes known.

A completion gives values to arguments that had none. Main statement: what a condition evaluates to
stays true or false under every completion, and so every path that a completion allows was allowed
before, as long as no operator takes the value of an `and` or `or` that was decided over an unknown
operand.
-/

namespace CallTime

open Value (Testable)

namespace Reading

/-- What becomes of a reading when more is known. A value stays, or its truth value if the reading is
loose. -/
inductive Grows (loose : Bool) : Option Object → Option Object → Prop
  | unknown : Grows loose none none
  | learnt {w : Object} (h : w.value.Testable) : Grows loose none (some w)
  | kept {v w : Object} (truth : w.value.truth = v.value.truth) (same : loose = false → w = v) :
    Grows loose (some v) (some w)

/-- Where the first reading is one, the second one has grown from it, or it fails to find an entry of a
table. -/
def Follows (loose : Bool) (x y : Reading) : Prop :=
  ∀ r, x = .ok r → y = .error .missingKey ∨ ∃ s, y = .ok s ∧ Grows loose r s

variable {k k' : Bool} {l l' r r' : Option Object} {right right' : Reading}

theorem Grows.refl (k : Bool) (l : Option Object) : Grows k l l := by
  cases l with
  | none => exact .unknown
  | some v => exact .kept rfl fun _ => rfl

theorem Follows.refl (k : Bool) (x : Reading) : Follows k x x :=
  fun r hr => .inr ⟨r, hr, .refl k r⟩

theorem Follows.bind {x y : Reading} {f g : Option Object → Reading} (h : Follows k x y)
    (hf : ∀ l l', x = .ok l → Grows k l l' → Follows k' (f l) (g l')) :
    Follows k' (x >>= f) (y >>= g) := by
  intro r hr
  obtain ⟨l, hl, hr⟩ := ok_of_bind hr
  obtain hy | ⟨l', hy, hg⟩ := h l hl
  · exact .inl (by rw [hy]; rfl)
  · rw [hy]
    exact hf l l' hl hg r hr

theorem follows_negation (h : Grows k l l') : Follows false (negation l) (negation l') := by
  intro s hs
  cases h with
  | unknown => exact .inr ⟨s, hs, .refl _ _⟩
  | learnt hw =>
    obtain ⟨t, ht⟩ := hw
    cases hs
    rw [negation, ht]
    exact .inr ⟨_, rfl, .learnt ⟨_, rfl⟩⟩
  | kept ht _ =>
    rw [negation] at hs ⊢
    rw [ht]
    exact .inr ⟨s, hs, .refl _ _⟩

theorem follows_operation (op : String) (hl : Grows k l l') (hr : Grows k' r r')
    (h : l.isSome → r.isSome → k = false ∧ k' = false) :
    Follows false (operation op l r) (operation op l' r') := by
  have learnt (x y : Option Object) : Follows false (.ok none) (operation op x y) := by
    intro s hs
    obtain rfl := Except.ok.inj hs
    unfold operation
    split
    · next a b o _ =>
      have ho := o.meets_apply a b
      split
      · next c hc =>
        rw [hc] at ho
        exact .inr ⟨_, rfl, .learnt (Value.Ordinary.testable ho)⟩
      · exact .inl rfl
      · exact .inr ⟨_, rfl, .unknown⟩
    · exact .inr ⟨_, rfl, .unknown⟩
  cases hl with
  | unknown => exact learnt _ _
  | learnt => exact learnt _ _
  | kept _ hsame =>
    cases hr with
    | unknown => exact learnt _ _
    | learnt => exact learnt _ _
    | kept _ hsame' =>
      obtain ⟨hk, hk'⟩ := h rfl rfl
      rw [hsame hk, hsame' hk']
      exact .refl _ _

/-- `and` and `or` differ in the truth value of a left operand that decides. -/
def connective (decisive : Bool) (left : Option Object) (right : Reading) : Reading := do
  match left with
  | some a => if (← a.value.truth) = decisive then return some a else right
  | none => match ← right with
    | some b => if (← b.value.truth) = decisive then return some b else return none
    | none => return none

theorem conjunction_eq (left : Option Object) (right : Reading) :
    conjunction left right = connective false left right := by
  unfold conjunction connective
  cases left with
  | some a =>
    refine bind_congr fun t => ?_
    cases t <;> rfl
  | none =>
    refine bind_congr fun r => ?_
    cases r with
    | none => rfl
    | some b =>
      refine bind_congr fun t => ?_
      cases t <;> rfl

theorem disjunction_eq (left : Option Object) (right : Reading) :
    disjunction left right = connective true left right := by
  rfl

def decides (decisive : Bool) : Reading → Bool
  | .ok (some a) => match a.value.truth with
    | .ok t => t == decisive
    | .error _ => false
  | _ => false

def isKnown : Reading → Bool
  | .ok (some _) => true
  | _ => false

/-- Over an unknown left operand only the truth value of the result stands: what the left operand
turns out to be may be the result instead. -/
def looseness (decisive : Bool) (left : Reading) (leftLoose rightLoose : Bool) : Bool :=
  if left.decides decisive then leftLoose else if left.isKnown then rightLoose else true

theorem connective_of_ok {decisive t : Bool} {a : Object} (h : a.value.truth = .ok t) (right : Reading) :
    connective decisive (some a) right = if t = decisive then .ok (some a) else right := by
  simp only [connective, h]
  rfl

theorem decides_of_ok {decisive t : Bool} {a : Object} (h : a.value.truth = .ok t) :
    decides decisive (.ok (some a)) = (t == decisive) := by
  simp only [decides, h]

theorem connective_none {decisive t : Bool} {b : Object} (h : b.value.truth = .ok t) :
    connective decisive none (.ok (some b)) = .ok (if t = decisive then some b else none) := by
  change (b.value.truth >>= fun t => if t = decisive then pure (some b) else pure none) = _
  rw [h]
  exact (apply_ite Except.ok _ _ _).symm

/-- Over an unknown operand the result is the right one if that decides. -/
theorem connective_none_cases {decisive : Bool} {s : Option Object}
    (h : connective decisive none right = .ok s) :
    (∃ b t, right = .ok (some b) ∧ b.value.truth = .ok t ∧ s = if t = decisive then some b else none) ∨
      right = .ok none ∧ s = none := by
  obtain ⟨r, hr, h⟩ := ok_of_bind h
  cases r with
  | none =>
    cases h
    exact .inr ⟨hr, rfl⟩
  | some b =>
    obtain ⟨t, ht, -⟩ := ok_of_bind h
    exact .inl ⟨b, t, hr, ht, Except.ok.inj (h.symm.trans (connective_none ht))⟩

theorem follows_connective_unknown (decisive : Bool) (hr : Follows k' right right') :
    Follows true (connective decisive none right) (connective decisive none right') := by
  intro s hs
  obtain ⟨b, t, hb, ht, rfl⟩ | ⟨hb, rfl⟩ := connective_none_cases hs
  · obtain hb' | ⟨_, hb', hg⟩ := hr _ hb
    · exact .inl (by rw [hb']; rfl)
    cases hg with
    | kept htruth _ =>
      rw [hb', connective_none (htruth.trans ht)]
      refine .inr ⟨_, rfl, ?_⟩
      by_cases hd : t = decisive
      · rw [if_pos hd, if_pos hd]
        exact .kept htruth fun h => absurd h.symm Bool.false_ne_true
      · rw [if_neg hd, if_neg hd]
        exact .unknown
  · obtain hb' | ⟨_, hb', hg⟩ := hr _ hb
    · exact .inl (by rw [hb']; rfl)
    rw [hb']
    cases hg with
    | unknown => exact .inr ⟨none, rfl, .unknown⟩
    | learnt hw =>
      obtain ⟨t, ht⟩ := hw
      rw [connective_none ht]
      refine .inr ⟨_, rfl, ?_⟩
      split
      · exact .learnt ⟨t, ht⟩
      · exact .unknown

theorem follows_connective_learnt (decisive : Bool) {w : Object} {t' : Bool}
    (ht' : w.value.truth = .ok t') (hr : Follows k' right right') :
    Follows true (connective decisive none right) (connective decisive (some w) right') := by
  intro s hs
  rw [connective_of_ok ht']
  by_cases hd' : t' = decisive
  · rw [if_pos hd']
    refine .inr ⟨_, rfl, ?_⟩
    obtain ⟨b, t, hb, ht, rfl⟩ | ⟨hb, rfl⟩ := connective_none_cases hs
    · split
      · next hd =>
        -- Both operands have the truth value that decides, so it does not matter which one is the result.
        exact .kept (by rw [ht, ht', hd, hd']) fun h => absurd h.symm Bool.false_ne_true
      · exact .learnt ⟨t', ht'⟩
    · exact .learnt ⟨t', ht'⟩
  · rw [if_neg hd']
    obtain ⟨b, t, hb, ht, rfl⟩ | ⟨hb, rfl⟩ := connective_none_cases hs
    · obtain hb' | ⟨_, hb', hg⟩ := hr _ hb
      · exact .inl hb'
      refine .inr ⟨_, hb', ?_⟩
      cases hg with
      | kept htruth _ =>
        split
        · exact .kept htruth fun h => absurd h.symm Bool.false_ne_true
        · exact .learnt ⟨t, htruth.trans ht⟩
    · obtain hb' | ⟨_, hb', hg⟩ := hr _ hb
      · exact .inl hb'
      refine .inr ⟨_, hb', ?_⟩
      cases hg with
      | unknown => exact .unknown
      | learnt hw' => exact .learnt hw'

theorem follows_connective (decisive : Bool) (hl : Grows k l l')
    (hr : decides decisive (.ok l) = false → Follows k' right right') :
    Follows (looseness decisive (.ok l) k k') (connective decisive l right)
      (connective decisive l' right') := by
  cases hl with
  | unknown => exact follows_connective_unknown decisive (hr rfl)
  | learnt hw =>
    obtain ⟨t', ht'⟩ := hw
    exact follows_connective_learnt decisive ht' (hr rfl)
  | @kept v w htruth hsame =>
    intro s hs
    obtain ⟨t, ht, -⟩ := ok_of_bind hs
    rw [connective_of_ok ht] at hs
    rw [connective_of_ok (htruth.trans ht), looseness, decides_of_ok ht]
    rw [decides_of_ok ht] at hr
    by_cases hd : t = decisive
    · rw [if_pos hd] at hs ⊢
      rw [if_pos (beq_iff_eq.mpr hd)]
      cases hs
      exact .inr ⟨_, rfl, .kept htruth hsame⟩
    · have hd' : (t == decisive) = false := beq_eq_false_iff_ne.mpr hd
      rw [if_neg hd] at hs ⊢
      rw [hd']
      exact hr hd' s hs

end Reading

namespace Artifact

open Reading

mutual

/-- The value was decided over an unknown operand of `and` or `or`. -/
def loose (bound : Info → Option Int → Reading) : Artifact → Bool
  | .binary _ op left right =>
    if op = "and" then
      looseness false (valueOfOption bound left) (looseOption bound left) (looseOption bound right)
    else if op = "or" then
      looseness true (valueOfOption bound left) (looseOption bound left) (looseOption bound right)
    else false
  | _ => false
termination_by structural a => a

def looseOption (bound : Info → Option Int → Reading) : Option Artifact → Bool
  | none => false
  | some a => loose bound a
termination_by structural a => a

end

mutual

def settled (bound : Info → Option Int → Reading) : Artifact → Bool
  | .binary _ op left right =>
    let l := valueOfOption bound left
    if op = "and" then settledOption bound left && (l.decides false || settledOption bound right)
    else if op = "or" then settledOption bound left && (l.decides true || settledOption bound right)
    else if op = "not" then settledOption bound left
    else settledOption bound left && settledOption bound right &&
      !(l.isKnown && (valueOfOption bound right).isKnown &&
        (looseOption bound left || looseOption bound right))
  | _ => true
termination_by structural a => a

def settledOption (bound : Info → Option Int → Reading) : Option Artifact → Bool
  | none => true
  | some a => settled bound a
termination_by structural a => a

end

variable {bound bound' : Info → Option Int → Reading}

mutual

theorem follows_valueWith (a : Artifact)
    (hb : ∀ info name index, .reference info name index ∈ a.walk →
      Follows false (bound info index) (bound' info index))
    (hs : settled bound a = true) :
    Follows (loose bound a) (a.valueWith bound) (a.valueWith bound') := by
  cases a with
  | reference info name index => exact hb info name index (mem_walk_self _)
  | binary info op left right =>
    have hleft := follows_valueOfOption left fun i n p hm => hb i n p (mem_walk_operand (.inl hm))
    have hright := follows_valueOfOption right fun i n p hm => hb i n p (mem_walk_operand (.inr hm))
    rw [settled] at hs
    rw [loose, valueWith, valueWith, Reading.binary, Reading.binary]
    by_cases hand : op = "and"
    · simp only [if_pos hand, conjunction_eq] at hs ⊢
      obtain ⟨hsl, hsr⟩ := Bool.and_eq_true_iff.mp hs
      refine (hleft hsl).bind fun l l' hl hg => ?_
      rw [hl] at hsr ⊢
      refine follows_connective false hg fun hd => hright ?_
      rwa [hd, Bool.false_or] at hsr
    simp only [if_neg hand] at hs ⊢
    by_cases hor : op = "or"
    · simp only [if_pos hor, disjunction_eq] at hs ⊢
      obtain ⟨hsl, hsr⟩ := Bool.and_eq_true_iff.mp hs
      refine (hleft hsl).bind fun l l' hl hg => ?_
      rw [hl] at hsr ⊢
      refine follows_connective true hg fun hd => hright ?_
      rwa [hd, Bool.false_or] at hsr
    simp only [if_neg hor] at hs ⊢
    by_cases hnot : op = "not"
    · simp only [if_pos hnot] at hs ⊢
      exact (hleft hs).bind fun _ _ _ hg => follows_negation hg
    · simp only [if_neg hnot] at hs ⊢
      obtain ⟨hsides, hfirm⟩ := Bool.and_eq_true_iff.mp hs
      obtain ⟨hsl, hsr⟩ := Bool.and_eq_true_iff.mp hsides
      refine (hleft hsl).bind fun l l' hl hgl => (hright hsr).bind fun r r' hr hgr => ?_
      refine follows_operation op hgl hgr fun hkl hkr => ?_
      rw [hl, hr] at hfirm
      cases l <;> cases hkl
      cases r <;> cases hkr
      simpa [isKnown] using hfirm
  | _ => exact .refl _ _
termination_by structural a

theorem follows_valueOfOption (a : Option Artifact)
    (hb : ∀ info name index, .reference info name index ∈ walkFrom a.toList →
      Follows false (bound info index) (bound' info index))
    (hs : settledOption bound a = true) :
    Follows (looseOption bound a) (valueOfOption bound a) (valueOfOption bound' a) := by
  cases a with
  | none => exact .refl _ _
  | some a => exact follows_valueWith a hb hs
termination_by structural a

end

end Artifact

open Artifact (boundTo)

/-- The second argument gives the object of the first one, or without `identity` an object of the same
value, or it is a literal in the place of an unknown one. -/
def CompletesAt (identity : Bool) (x y : Artifact) : Prop :=
  y.closedValue.view identity = x.closedValue.view identity ∨
    x.closedValue = .ok none ∧ ∃ info v place, y = .literal info v place ∧ v.Testable

/-- Argument lists of which the second one has the known objects or values of the first one and literals
for some of the unknown ones. -/
def Completes (identity : Bool) (a b : List Artifact) : Prop := List.Forall₂ (CompletesAt identity) a b

variable {forest : Forest} {a b : List Artifact} {identity : Bool}

theorem CompletesAt.follows {x y : Artifact} (h : CompletesAt identity x y) :
    ∃ r, Reading.Follows false x.closedValue r ∧ r.view identity = y.closedValue.view identity := by
  obtain h | ⟨hx, info, v, place, rfl, hv⟩ := h
  · exact ⟨x.closedValue, .refl _ _, h.symm⟩
  · refine ⟨_, fun r hr => ?_, rfl⟩
    cases hx.symm.trans hr
    exact .inr ⟨_, rfl, .learnt hv⟩

theorem boundTo_of_told {info : Info} {name : String} {index : Int} (hi : 0 ≤ index)
    (ha : ∀ x ∈ a, x.id = info.id → x = .reference info name (some index)) :
    boundTo a info (some index) = (a[index.toNat]?.map Artifact.closedValue).getD (.ok none) := by
  have hself : (Artifact.reference info name (some index)).closedValue = .ok none := by
    simp only [Artifact.closedValue, Artifact.valueWith, Artifact.unbound, argumentAt_of_nonneg _ hi]
    rfl
  simp only [boundTo, argumentAt_of_nonneg a hi]
  cases hx : a[index.toNat]? with
  | none => rfl
  | some x =>
    change (if x.id = info.id then _ else _) = x.closedValue
    split
    · next hid =>
      rw [ha x (List.mem_of_getElem? hx) hid, hself]
      rfl
    · rfl

theorem boundTo_eq {info : Info} {name : String} {index : Int} (hi : 0 ≤ index)
    (href : forest.Holds (.reference info name (some index))) (ha : ∀ x ∈ a, forest.Holds x) :
    boundTo a info (some index) = (a[index.toNat]?.map Artifact.closedValue).getD (.ok none) :=
  boundTo_of_told hi fun x hx hid => (ha x hx).eq href hid

theorem Completes.follows (h : Completes identity a b) (n : Nat) :
    ∃ r, Reading.Follows false ((a[n]?.map Artifact.closedValue).getD (.ok none)) r ∧
      r.view identity = ((b[n]?.map Artifact.closedValue).getD (.ok none)).view identity := by
  induction h generalizing n with
  | nil => exact ⟨_, .refl _ _, rfl⟩
  | cons hxy _ ih =>
    cases n with
    | zero => exact hxy.follows
    | succ n => exact ih n

def Artifact.fromFront : Artifact → Bool
  | .reference _ _ (some index) => 0 ≤ index
  | _ => true

/-- A condition whose references count their places from the front, and none of whose operators takes a
loose value. Without `identity` it looks at values only. -/
structure Artifact.Sturdy (identity : Bool) (forest : Forest) (a : List Artifact) (e : Artifact) :
    Prop where
  held : forest.Holds e
  places : ∀ n ∈ e.walk, n.fromFront = true
  settled : e.settled (boundTo a) = true
  byValue : identity = true ∨ ∀ n ∈ e.walk, n.asksIdentity = false

theorem Completes.follows_value (sound : forest.Sound) (ha : ∀ x ∈ a, forest.Holds x)
    (hb : ∀ y ∈ b, forest.Holds y) (h : Completes identity a b) {e : Artifact}
    (he : e.Sturdy identity forest a) :
    ∃ r, Reading.Follows (e.loose (boundTo a)) (e.value a) r ∧
      r.view identity = (e.value b).view identity := by
  -- Known objects are kept as they are, so that only arguments that were unknown change.
  have hrule : ∀ info index, ∃ r, (∀ name, .reference info name index ∈ e.walk →
      Reading.Follows false (boundTo a info index) r ∧
        r.view identity = (boundTo b info index).view identity) := by
    intro info index
    by_cases hm : ∃ name, .reference info name index ∈ e.walk
    · obtain ⟨name, hm⟩ := hm
      have href : forest.Holds (.reference info name index) :=
        Artifact.forall_mem_walkFrom sound.closed (fun _ h => List.mem_singleton.mp h ▸ he.held) _ hm
      cases index with
      | none => exact ⟨_, fun _ _ => ⟨.refl _ _, rfl⟩⟩
      | some index =>
        have hi : 0 ≤ index := of_decide_eq_true (he.places _ hm)
        rw [boundTo_eq hi href ha, boundTo_eq hi href hb]
        obtain ⟨r, hr⟩ := h.follows index.toNat
        exact ⟨r, fun _ _ => hr⟩
    · exact ⟨.ok none, fun name hname => absurd ⟨name, hname⟩ hm⟩
  choose rule hrule using hrule
  refine ⟨e.valueWith rule, ?_, ?_⟩
  · exact e.follows_valueWith (fun info name index hm => (hrule info index name hm).1) he.settled
  · exact e.view_valueWith_congr he.byValue fun info name index hm => (hrule info index name hm).2

theorem admits_untabled : Admits (· ≠ .missingKey) fun v => v.kind ≠ .table where
  truth v _ := v.fails_truth.widen fun e he hk => by cases hk; exact he
  ordinary v hv := hv.kind_ne
  lookup v hv hk := absurd hk hv

theorem Artifact.closedValue_untabled {x : Artifact}
    (hx : ∀ info v place, .literal info v place ∈ x.walk → v.kind ≠ .table) :
    Meets (· ≠ .missingKey) x.closedValue (Reading.Known fun v => v.kind ≠ .table) := by
  refine meets_valueWith admits_untabled x (fun info name index _ => ?_) hx
  cases index with
  | none => exact meets_ok Reading.known_none
  | some index =>
    refine meets_bind ((meets_argumentAt [] index).widen ?_) fun _ _ => meets_pure Reading.known_none
    rintro _ rfl ⟨⟩

/-- Looking for an entry takes a table, and tables are literals. -/
theorem Artifact.exists_table_of_missingKey {e : Artifact} (h : e.value b = .error .missingKey) :
    ∃ info v place, .literal info v place ∈ walkFrom (e :: b) ∧ v.kind = .table := by
  by_contra hno
  push Not at hno
  have hparts : walkFrom (e :: b) = e.walk ++ walkFrom b := walkFrom_append [e] b
  have hmeets : Meets (· ≠ .missingKey) (e.value b) (Reading.Known fun v => v.kind ≠ .table) := by
    refine meets_valueWith admits_untabled e (fun info name index _ => ?_) fun info v place hm =>
      hno info v place (hparts ▸ List.mem_append_left _ hm)
    cases index with
    | none => exact meets_ok Reading.known_none
    | some index =>
      refine meets_bind ((meets_argumentAt b index).widen ?_) fun x hx => ?_
      · rintro _ rfl ⟨⟩
      · cases x with
        | none => exact meets_pure Reading.known_none
        | some x =>
          refine meets_ite (meets_pure Reading.known_none) (closedValue_untabled fun info v place hm => ?_)
          have hwalk := mem_walkFrom_of_mem_walk (mem_walkFrom_of_mem (hx x rfl)) hm
          exact hno info v place (hparts ▸ List.mem_append_right _ hwalk)
  rw [h] at hmeets
  exact hmeets rfl

namespace Path

def Sturdy (identity : Bool) (forest : Forest) (a : List Artifact)
    (conditions : List (Artifact × Bool)) : Prop :=
  ∀ c ∈ conditions, ∀ e, conditionOf c.1 = some e → e.Sturdy identity forest a

theorem branchPossible_of_completes (sound : forest.Sound) (ha : ∀ x ∈ a, forest.Holds x)
    (hb : ∀ y ∈ b, forest.Holds y) (h : Completes identity a b) {condition : Option Artifact}
    (he : ∀ e, condition = some e → e.Sturdy identity forest a) (taken : Bool) {possible : Bool}
    (hp : Artifact.branchPossible condition taken a = .ok possible) :
    Artifact.branchPossible condition taken b = .error .missingKey ∨
      ∃ possible', Artifact.branchPossible condition taken b = .ok possible' ∧
        (possible' = true → possible = true) := by
  rw [Artifact.branchPossible_eq] at hp
  obtain ⟨r, hr, rfl⟩ : ∃ r, Artifact.conditionValue a condition = .ok r ∧
      Artifact.allows taken (r.map Object.value) = possible := by
    cases hc : Artifact.conditionValue a condition with
    | error e =>
      rw [hc] at hp
      cases hp
    | ok r =>
      rw [hc] at hp
      exact ⟨r, rfl, Except.ok.inj hp⟩
  have hf : ∃ k y, Reading.Follows k (Artifact.conditionValue a condition) y ∧
      y.view identity = (Artifact.conditionValue b condition).view identity := by
    cases condition with
    | none => exact ⟨false, _, .refl _ _, rfl⟩
    | some e =>
      obtain ⟨y, hy⟩ := h.follows_value sound ha hb (he e rfl)
      exact ⟨_, y, hy⟩
  obtain ⟨k, y, hf, hy⟩ := hf
  rw [Artifact.branchPossible_eq, ← Reading.value_eq_of_view hy]
  obtain rfl | ⟨s, rfl, hg⟩ := hf r hr
  · exact .inl rfl
  · refine .inr ⟨_, rfl, ?_⟩
    cases hg with
    | unknown => exact fun _ => rfl
    | learnt => exact fun _ => rfl
    | kept truth _ =>
      simp only [Option.map_some, Artifact.allows, truth]
      exact fun h => h

theorem admits_of_completes (sound : forest.Sound) (ha : ∀ x ∈ a, forest.Holds x)
    (hb : ∀ y ∈ b, forest.Holds y) (h : Completes identity a b)
    {conditions : List (Artifact × Bool)} (hc : Sturdy identity forest a conditions) {possible : Bool}
    (hp : admits a conditions = .ok possible) :
    admits b conditions = .error .missingKey ∨
      ∃ possible', admits b conditions = .ok possible' ∧ (possible' = true → possible = true) := by
  induction conditions with
  | nil => exact .inr ⟨true, rfl, fun _ => (Except.ok.inj hp).symm⟩
  | cons c rest ih =>
    obtain ⟨now, hnow, hp⟩ := ok_of_bind hp
    obtain hnow' | ⟨now', hnow', himp⟩ := branchPossible_of_completes sound ha hb h
      (hc c List.mem_cons_self) c.2 hnow
    · rw [admits, hnow']
      exact .inl rfl
    rw [admits, hnow']
    cases now' with
    | false => exact .inr ⟨false, rfl, fun h => absurd h Bool.false_ne_true⟩
    | true =>
      rw [himp rfl] at hp
      exact ih (fun d hd => hc d (List.mem_cons_of_mem c hd)) hp

theorem candidates_of_completes (sound : forest.Sound) (ha : ∀ x ∈ a, forest.Holds x)
    (hb : ∀ y ∈ b, forest.Holds y) (h : Completes identity a b) {paths : List Path}
    (hc : ∀ p ∈ paths, Sturdy identity forest a p.conditions) {cs : List Path}
    (hcs : candidates a paths = .ok cs) :
    candidates b paths = .error .missingKey ∨
      ∃ ds, candidates b paths = .ok ds ∧ ds.Sublist cs := by
  induction paths generalizing cs with
  | nil => exact .inr ⟨[], rfl, List.nil_sublist _⟩
  | cons p ps ih =>
    obtain ⟨now, hnow, hcs⟩ := ok_of_bind hcs
    obtain ⟨rest, hrest, hcs⟩ := ok_of_bind hcs
    obtain hnow' | ⟨now', hnow', himp⟩ :=
      admits_of_completes sound ha hb h (hc p List.mem_cons_self) hnow
    · rw [candidates, hnow']
      exact .inl rfl
    obtain hrest' | ⟨rest', hrest', hsub⟩ := ih (fun q hq => hc q (List.mem_cons_of_mem p hq)) hrest
    · rw [candidates, hnow', hrest']
      exact .inl rfl
    obtain rfl := Except.ok.inj hcs
    rw [candidates, hnow', hrest']
    refine .inr ⟨_, rfl, ?_⟩
    cases now' with
    | false =>
      refine hsub.trans ?_
      split
      · exact List.sublist_cons_self _ _
      · exact List.Sublist.refl _
    | true =>
      rw [himp rfl]
      exact hsub.cons_cons p

/-- Of a condition that has a value the truth value stays under every completion of the arguments, and
the value itself unless it was decided over an unknown operand. So a completion allows no path that was
not allowed before. The one thing that can go wrong is that the completion puts a table in which a
template looks for an entry in vain. -/
theorem completion_conservative (sound : forest.Sound) (ha : ∀ x ∈ a, forest.Holds x)
    (hb : ∀ y ∈ b, forest.Holds y) (h : Completes identity a b) :
    (∀ e : Artifact, e.Sturdy identity forest a → ∀ v, e.value a = .ok (some v) →
      e.value b = .error .missingKey ∨
        ∃ w, e.value b = .ok (some w) ∧ w.value.truth = v.value.truth ∧
          (e.loose (boundTo a) = false → w.value = v.value)) ∧
    (∀ paths : List Path, (∀ p ∈ paths, Sturdy identity forest a p.conditions) →
      ∀ cs, candidates a paths = .ok cs → candidates b paths = .error .missingKey ∨
        ∃ ds, candidates b paths = .ok ds ∧ ds.Sublist cs) ∧
    ∀ e : Artifact, e.value b = .error .missingKey →
      ∃ info v place, .literal info v place ∈ Artifact.walkFrom (e :: b) ∧ v.kind = .table := by
  refine ⟨fun e he v hv => ?_, fun paths hc cs hcs => candidates_of_completes sound ha hb h hc hcs,
    fun e => Artifact.exists_table_of_missingKey⟩
  obtain ⟨r, hr, hview⟩ := h.follows_value sound ha hb he
  have hvalue := Reading.value_eq_of_view hview
  obtain hf | ⟨s, hs, hg⟩ := hr _ hv
  · exact .inl (Reading.eq_error_of_value hvalue hf)
  · cases hg with
    | kept truth same =>
      obtain ⟨w, hw, hwv⟩ := Reading.exists_of_value hvalue hs
      exact .inr ⟨w, hw, hwv ▸ truth, fun hl => hwv.trans (congrArg Object.value (same hl))⟩

/-- The first condition is `(x and False) or y == 1`, the second one `(x and False) == False`. -/
def retrying : Session :=
  let x : Draft := .reference none "x" (some 0)
  let never : Draft := .literal none (.bool false)
  let denied : Draft := .binary none "and" (some x) (some never)
  let last : Draft := .binary none "==" (some (.reference none "y" (some 1)))
    (some (.literal none (.int 1)))
  .start [.defining "retry" [x, .reference none "y" (some 1)] [
    .branch none (some (.binary none "or" (some denied) (some last)))
      (some (.calling "retry" [.reference none "v" none, .literal none (.int 2)]))
      (some (.calling "retry" [.literal none (.str ""), .literal none (.int 2)])),
    .branch none (some (.binary none "==" (some denied) (some never))) none none]] {}

theorem sound_retrying : retrying.forest.Sound := by
  rw [retrying]
  exact (Session.sound_start _ _).1

/-- The arguments of the first call in it: an unknown one and a number. -/
def unknownRetry : List Artifact := [.reference ⟨9, none⟩ "v" none, .literal ⟨10, none⟩ (.int 2)]

/-- The arguments of the second call: an empty text and the same number. -/
def emptyRetry : List Artifact := [.literal ⟨12, none⟩ (.str ""), .literal ⟨13, none⟩ (.int 2)]

theorem completes_retry : Completes false unknownRetry emptyRetry :=
  .cons (.inr ⟨rfl, _, _, _, rfl, false, by decide⟩) (.cons (.inl rfl) .nil)

theorem holds_retry : (∀ x ∈ unknownRetry, retrying.forest.Holds x) ∧
    ∀ y ∈ emptyRetry, retrying.forest.Holds y := by
  simp only [unknownRetry, emptyRetry, List.forall_mem_cons, Forest.Holds]
  exact ⟨⟨by cbv, by cbv, List.forall_mem_nil _⟩, by cbv, by cbv, List.forall_mem_nil _⟩

def denied (id : NodeId) : Artifact :=
  .binary ⟨id + 2, none⟩ "and" (some (.reference ⟨id, none⟩ "x" (some 0)))
    (some (.literal ⟨id + 1, none⟩ (.bool false)))

def deniedOrLast : Artifact :=
  .binary ⟨8, none⟩ "or" (some (denied 2)) (some (.binary ⟨7, none⟩ "=="
    (some (.reference ⟨5, none⟩ "y" (some 1))) (some (.literal ⟨6, none⟩ (.int 1)))))

theorem sturdy_deniedOrLast : deniedOrLast.Sturdy false retrying.forest unknownRetry where
  held := by
    rw [Forest.Holds]
    cbv
  places := by decide +kernel
  settled := by decide +kernel
  byValue := .inr (by decide +kernel)

def bothWays (condition : Artifact) : List Path :=
  [true, false].map fun taken =>
    { function := default, conditions := [(.branch ⟨15, none⟩ (some condition) none none, taken)] }

theorem completion_conservative_retry :
    Completes false unknownRetry emptyRetry ∧
      deniedOrLast.Sturdy false retrying.forest unknownRetry ∧
      (∃ w, deniedOrLast.value emptyRetry = .ok (some w) ∧ w.value = .bool false) ∧
      ∃ ds, candidates emptyRetry (bothWays deniedOrLast) = .ok ds ∧
        ds.Sublist ((bothWays deniedOrLast).drop 1) := by
  obtain ⟨values, paths, -⟩ := completion_conservative sound_retrying holds_retry.1 holds_retry.2
    completes_retry
  refine ⟨completes_retry, sturdy_deniedOrLast, ?_, ?_⟩
  · have hv : deniedOrLast.value unknownRetry = .ok (some ⟨.bool false, .made⟩) := by cbv
    obtain hno | ⟨w, hw, -, hsame⟩ := values _ sturdy_deniedOrLast _ hv
    · exact absurd hno (by cbv; simp)
    · exact ⟨w, hw, hsame (by decide +kernel)⟩
  · have hsturdy : ∀ p ∈ bothWays deniedOrLast,
        Sturdy false retrying.forest unknownRetry p.conditions := by
      intro p hp c hc e he
      obtain ⟨taken, -, rfl⟩ := List.mem_map.mp hp
      obtain rfl := List.mem_singleton.mp hc
      cases he
      exact sturdy_deniedOrLast
    have hcs : candidates unknownRetry (bothWays deniedOrLast) =
        .ok ((bothWays deniedOrLast).drop 1) := by cbv
    obtain hno | hds := paths _ hsturdy _ hcs
    · exact absurd hno (by cbv; simp)
    · exact hds

def deniedIsFalse : Artifact :=
  .binary ⟨20, none⟩ "==" (some (denied 16)) (some (.literal ⟨19, none⟩ (.bool false)))

/-- The second condition is true over an unknown argument and false for an empty text, so the way on
which it is false is not among the candidates. -/
theorem completion_excludes_candidate :
    retrying.forest.Holds deniedIsFalse ∧ Completes false unknownRetry emptyRetry ∧
      (deniedIsFalse.value unknownRetry).value = .ok (some (.bool true)) ∧
      (deniedIsFalse.value emptyRetry).value = .ok (some (.bool false)) ∧
      candidates emptyRetry (bothWays deniedIsFalse) = .ok ((bothWays deniedIsFalse).drop 1) ∧
      candidates unknownRetry (bothWays deniedIsFalse) = .ok ((bothWays deniedIsFalse).take 1) := by
  refine ⟨?_, completes_retry, by cbv, by cbv, by cbv, by cbv⟩
  rw [Forest.Holds]
  cbv

end Path

end CallTime

import CallTime.Proofs.Reference

/-!
How computations end, and how operators do.

`Meets` says of a computation what it gives, or else how it fails. Main statement: an operator gives a
value that has a truth value and no entries, or it fails because of its operands; looking for an entry
in vain takes a table on the right.
-/

namespace CallTime

section Meets

variable {α β : Type} {E E' : Fault → Prop} {x : Except Fault α} {Q Q' : α → Prop}

/-- The computation gives something with `Q`, or it fails in a way that `E` allows. -/
def Meets (E : Fault → Prop) (x : Except Fault α) (Q : α → Prop) : Prop :=
  match x with
  | .ok a => Q a
  | .error e => E e

theorem meets_ok {a : α} (h : Q a) : Meets E (.ok a) Q := h

theorem meets_pure {a : α} (h : Q a) : Meets E (pure a) Q := h

theorem meets_error {e : Fault} (h : E e) : Meets E (.error e) Q := h

theorem meets_iff : Meets E x Q ↔ (∀ e, x = .error e → E e) ∧ ∀ a, x = .ok a → Q a := by
  cases x with
  | error e => simp [Meets]
  | ok a => simp [Meets]

theorem Meets.mono (hx : Meets E x Q) (hQ : ∀ a, Q a → Q' a) : Meets E x Q' := by
  cases x with
  | error e => exact hx
  | ok a => exact hQ a hx

theorem Meets.widen (hx : Meets E x Q) (hE : ∀ e, E e → E' e) : Meets E' x Q := by
  cases x with
  | error e => exact hE e hx
  | ok a => exact hx

theorem meets_bind {f : α → Except Fault β} {R : β → Prop} (hx : Meets E x Q)
    (hf : ∀ a, Q a → Meets E (f a) R) : Meets E (x >>= f) R := by
  cases x with
  | error e => exact hx
  | ok a => exact hf a hx

theorem meets_mapM_forall₂ {f : α → Except Fault β} {as : List α} {R : α → β → Prop}
    (h : ∀ a ∈ as, Meets E (f a) (R a)) : Meets E (as.mapM f) (List.Forall₂ R as) := by
  induction as with
  | nil => exact .nil
  | cons a as ih =>
    rw [List.mapM_cons]
    refine meets_bind (h a List.mem_cons_self) fun b hb => ?_
    refine meets_bind (ih fun c hc => h c (List.mem_cons_of_mem a hc)) fun bs hbs => ?_
    exact .cons hb hbs

theorem exists_of_forall₂ {R : α → β → Prop} {as : List α} {bs : List β} (h : List.Forall₂ R as bs)
    {b : β} (hb : b ∈ bs) : ∃ a ∈ as, R a b := by
  induction h with
  | nil => cases hb
  | @cons a b' as bs hab _ ih =>
    obtain rfl | hb := List.mem_cons.mp hb
    · exact ⟨a, List.mem_cons_self, hab⟩
    · obtain ⟨a', ha, hab⟩ := ih hb
      exact ⟨a', List.mem_cons_of_mem a ha, hab⟩

theorem meets_mapM {f : α → Except Fault β} {as : List α} {R : β → Prop}
    (h : ∀ a ∈ as, Meets E (f a) R) :
    Meets E (as.mapM f) fun bs => bs.length = as.length ∧ ∀ b ∈ bs, R b := by
  refine (meets_mapM_forall₂ h).mono fun bs hbs => ⟨hbs.length_eq.symm, fun b hb => ?_⟩
  obtain ⟨_, -, hr⟩ := exists_of_forall₂ hbs hb
  exact hr

/-- The computation fails in no other way than `E` allows. -/
abbrev Fails (E : Fault → Prop) (x : Except Fault α) : Prop := Meets E x fun _ => True

theorem Meets.fails (h : Meets E x Q) : Fails E x := h.mono fun _ _ => trivial

@[simp] theorem fails_ok (a : α) : Fails E (.ok a) := trivial

@[simp] theorem fails_pure (a : α) : Fails E (pure a) := trivial

@[simp] theorem fails_error_iff {e : Fault} : Fails E (.error e : Except Fault α) ↔ E e := Iff.rfl

@[simp] theorem fails_throw_iff {e : Fault} : Fails E (throw e : Except Fault α) ↔ E e := Iff.rfl

theorem fails_bind {f : α → Except Fault β} (hx : Fails E x) (hf : ∀ a, Fails E (f a)) :
    Fails E (x >>= f) :=
  meets_bind hx fun a _ => hf a

theorem fails_bind_iff {f : α → Except Fault β} :
    Fails E (x >>= f) ↔ Fails E x ∧ ∀ a, x = .ok a → Fails E (f a) := by
  cases x with
  | error e => exact ⟨fun h => ⟨h, fun _ h => by cases h⟩, And.left⟩
  | ok a => exact ⟨fun h => ⟨trivial, fun _ h' => Except.ok.inj h' ▸ h⟩, fun h => h.2 a rfl⟩

@[simp] theorem fails_map_iff {f : α → β} : Fails E (f <$> x) ↔ Fails E x := by
  cases x <;> rfl

theorem meets_ite {c : Prop} [Decidable c] {y : Except Fault α} (hx : Meets E x Q) (hy : Meets E y Q) :
    Meets E (if c then x else y) Q := by
  split
  · exact hx
  · exact hy

theorem fails_ite {c : Prop} [Decidable c] {y : Except Fault α} (hx : Fails E x) (hy : Fails E y) :
    Fails E (if c then x else y) :=
  meets_ite hx hy

theorem fails_mapM {f : α → Except Fault β} {as : List α} (h : ∀ a ∈ as, Fails E (f a)) :
    Fails E (as.mapM f) :=
  (meets_mapM h).mono fun _ _ => trivial

theorem fails_mapIdxM {f : Nat → α → Except Fault β} {as : List α} (h : ∀ i a, Fails E (f i a)) :
    Fails E (as.mapIdxM f) := by
  have hgo (bs : Array β) : Fails E (List.mapIdxM.go f as bs) := by
    induction as generalizing bs with
    | nil => exact fails_pure _
    | cons a as ih => exact fails_bind (h _ a) fun b => ih _
  exact hgo #[]

theorem fails_foldlM {f : β → α → Except Fault β} (h : ∀ b a, Fails E (f b a)) (as : List α) (b : β) :
    Fails E (as.foldlM f b) := by
  induction as generalizing b with
  | nil => exact fails_pure b
  | cons a as ih => exact fails_bind (h b a) ih

end Meets

def Fault.Mild : Fault → Prop
  | .broken _ _ | .outOfRange => False
  | _ => True

theorem Fault.mild_iff {e : Fault} :
    e.Mild ↔ e ≠ .outOfRange ∧ ∀ reason context, e ≠ .broken reason context := by
  cases e <;> simp [Fault.Mild]

/-- What operators refuse operands with. -/
def Fault.OfOperands : Fault → Prop
  | .wrongKind | .wrongValue | .divisionByZero | .infinite | .quotientTooLarge | .tooLarge => True
  | _ => False

theorem Fault.OfOperands.mild {e : Fault} (h : e.OfOperands) : e.Mild := by
  cases e <;> trivial

theorem fails_mild {α : Type} {x : Except Fault α} (h : Fails Fault.OfOperands x) :
    Fails Fault.Mild x :=
  h.widen fun _ he => he.mild

/-- An operator with this right operand may fail so. -/
def Fault.OfOperator (right : Value) (e : Fault) : Prop :=
  e.OfOperands ∨ e = .missingKey ∧ right.kind = .table

def Value.Testable (v : Value) : Prop := ∃ t, v.truth = .ok t

/-- A value that has a truth value and no entries. -/
def Value.Ordinary : Value → Prop
  | .stubborn _ _ | .table _ => False
  | _ => True

open Fault (OfOperands)
open Value (Ordinary)

namespace Number

theorem fails_toBinary (n : Int) : Fails OfOperands (toBinary n) := by
  simp only [toBinary]
  split <;> trivial

theorem fails_parts (x : Number) : Fails OfOperands x.parts := by
  cases x with
  | int n => exact fails_bind (fails_toBinary n) fun _ => fails_pure _
  | _ => exact fails_ok _

theorem fails_pair (x y : Number) : Fails OfOperands (x.pair y) := by
  cases x <;> cases y <;> simp [pair, fails_bind_iff, fails_toBinary, fails_parts]

theorem meets_pair {f : Pair → Except Fault Value} (x y : Number)
    (ints : ∀ a b, Meets OfOperands (f (.ints a b)) Ordinary)
    (floats : ∀ x y, Meets OfOperands (f (.floats x y)) Ordinary)
    (complexes : ∀ a b c d, Meets OfOperands (f (.complexes a b c d)) Ordinary) :
    Meets OfOperands (x.pair y >>= f) Ordinary := by
  refine meets_bind (fails_pair x y) fun p _ => ?_
  cases p with
  | ints a b => exact ints a b
  | floats x y => exact floats x y
  | complexes a b c d => exact complexes a b c d

theorem meets_add (x y : Number) : Meets OfOperands (x.add y) Ordinary :=
  meets_pair x y (fun _ _ => trivial) (fun _ _ => trivial) fun _ _ _ _ => trivial

theorem meets_sub (x y : Number) : Meets OfOperands (x.sub y) Ordinary :=
  meets_pair x y (fun _ _ => trivial) (fun _ _ => trivial) fun _ _ _ _ => trivial

theorem meets_mul (x y : Number) : Meets OfOperands (x.mul y) Ordinary :=
  meets_pair x y (fun _ _ => trivial) (fun _ _ => trivial) fun _ _ _ _ => trivial

theorem fails_intDiv (a b : Int) : Fails OfOperands (intDiv a b) := by
  unfold intDiv
  split
  · trivial
  · split <;> trivial

theorem meets_complexDiv (a b c d : Binary64) : Meets OfOperands (complexDiv a b c d) Ordinary := by
  unfold complexDiv
  split
  · split <;> trivial
  · split <;> trivial

theorem meets_div (x y : Number) : Meets OfOperands (x.div y) Ordinary := by
  refine meets_pair x y (fun a b => ?_) (fun x y => ?_) meets_complexDiv
  · exact meets_bind (fails_intDiv a b) fun _ _ => trivial
  · exact meets_ite (meets_error trivial) (meets_pure trivial)

theorem meets_floorDiv (x y : Number) : Meets OfOperands (x.floorDiv y) Ordinary := by
  refine meets_pair x y (fun a b => ?_) (fun x y => ?_) fun _ _ _ _ => trivial
  · exact meets_ite (meets_error trivial) (meets_pure trivial)
  · exact meets_ite (meets_error trivial) (meets_pure trivial)

theorem meets_mod (x y : Number) : Meets OfOperands (x.mod y) Ordinary := by
  refine meets_pair x y (fun a b => ?_) (fun x y => ?_) fun _ _ _ _ => trivial
  · exact meets_ite (meets_error trivial) (meets_pure trivial)
  · exact meets_ite (meets_error trivial) (meets_pure trivial)

theorem fails_order (o : Order) (x y : Number) : Fails OfOperands (x.order o y) := by
  unfold order
  split
  · trivial
  · trivial
  · split <;> trivial

end Number

namespace Value

theorem Ordinary.testable {v : Value} (h : v.Ordinary) : v.Testable := by
  cases v with
  | stubborn | table => cases h
  | _ => exact ⟨_, rfl⟩

theorem Ordinary.kind_ne {v : Value} (h : v.Ordinary) : v.kind ≠ .table := by
  cases v with
  | stubborn | table => cases h
  | _ => rintro ⟨⟩

theorem fails_truth (v : Value) : Fails OfOperands v.truth := by
  cases v with
  | stubborn kind => cases kind <;> trivial
  | _ => trivial

theorem fails_toInt (v : Value) : Fails OfOperands v.toInt := by
  unfold toInt
  split <;> try trivial
  · split <;> trivial
  · split
    · exact fails_ite (fails_ok _) (meets_error trivial)
    · trivial

theorem meets_numeric {op : Number → Number → Except Fault Value}
    (h : ∀ x y, Meets OfOperands (op x y) Ordinary) (a b : Value) :
    Meets OfOperands (numeric op a b) Ordinary := by
  unfold numeric
  split
  · exact h _ _
  · trivial

theorem meets_add (a b : Value) : Meets OfOperands (a.add b) Ordinary := by
  unfold add
  split <;> first | trivial | exact meets_numeric Number.meets_add _ _

theorem fails_repeated {α : Type} (items : List α) (count : Int) :
    Fails OfOperands (repeated items count) := by
  unfold repeated
  split
  · trivial
  · split <;> trivial

theorem meets_repetition {items : Value} {count : Int} {r : Except Fault Value}
    (h : items.repetition? count = some r) : Meets OfOperands r Ordinary := by
  unfold repetition? at h
  split at h <;> cases h <;> exact meets_bind (fails_repeated _ _) fun _ _ => trivial

theorem meets_mul (a b : Value) : Meets OfOperands (a.mul b) Ordinary := by
  unfold mul
  split
  · next h =>
    obtain ⟨n, -, hr⟩ := Option.bind_eq_some_iff.mp h
    exact meets_repetition hr
  · next h =>
    obtain ⟨n, -, hr⟩ := Option.bind_eq_some_iff.mp h
    exact meets_repetition hr
  · exact meets_numeric Number.meets_mul a b

mutual

theorem fails_order (o : Order) (a b : Value) : Fails OfOperands (a.order o b) := by
  cases a with
  | list xs =>
    cases b with
    | list ys => exact fails_orderItems o xs ys
    | _ => trivial
  | tuple xs =>
    cases b with
    | tuple ys => exact fails_orderItems o xs ys
    | _ => trivial
  | _ =>
    unfold order
    repeat' split
    all_goals first | trivial | exact Number.fails_order _ _ _
termination_by structural a

theorem fails_orderItems (o : Order) (as bs : List Value) : Fails OfOperands (orderItems o as bs) := by
  cases as with
  | nil => cases bs <;> trivial
  | cons a as =>
    cases bs with
    | nil => trivial
    | cons b bs =>
      rw [orderItems]
      exact fails_ite (fails_orderItems o as bs) (fails_order o a b)
termination_by structural as

end

theorem fails_member (item whole : Value) : Fails OfOperands (item.member whole) := by
  unfold member
  split
  · split <;> trivial
  · split <;> first | trivial | exact fails_ite trivial trivial
  · trivial
  · trivial
  · split
    · split <;> trivial
    · trivial
  · trivial

mutual

theorem fails_literal (v : Value) : Fails (· = .wrongValue) v.literal := by
  cases v with
  | int n =>
    rw [literal, decimalText]
    exact fails_ite (meets_error rfl) (fails_ok _)
  | list items => exact fails_bind (fails_literals items) fun _ => fails_pure _
  | tuple items =>
    refine fails_bind (fails_literals items) fun ts => ?_
    split <;> trivial
  | table entries => exact fails_bind (fails_entryLiterals entries) fun _ => fails_pure _
  | stubborn refusal => cases refusal <;> trivial
  | _ => trivial
termination_by structural v

theorem fails_literals (vs : List Value) : Fails (· = .wrongValue) (literals vs) := by
  cases vs with
  | nil => trivial
  | cons v vs =>
    exact fails_bind (fails_literal v) fun _ => fails_bind (fails_literals vs) fun _ => fails_pure _
termination_by structural vs

theorem fails_entryLiterals (es : List (Text × Value)) : Fails (· = .wrongValue) (entryLiterals es) := by
  cases es with
  | nil => trivial
  | cons e es =>
    exact fails_bind (fails_entryLiteral e) fun _ =>
      fails_bind (fails_entryLiterals es) fun _ => fails_pure _
termination_by structural es

theorem fails_entryLiteral (e : Text × Value) : Fails (· = .wrongValue) (entryLiteral e) := by
  obtain ⟨k, v⟩ := e
  exact fails_bind (fails_literal v) fun _ => fails_pure _
termination_by structural e

end

theorem fails_literal_operand (v : Value) : Fails OfOperands v.literal :=
  (fails_literal v).widen fun _ he => he ▸ trivial

theorem fails_display (v : Value) : Fails OfOperands v.display := by
  cases v with
  | str s => trivial
  | _ => exact fails_bind (fails_literal_operand _) fun _ => fails_pure _

end Value

namespace Template

variable {α β : Type} {E : Fault → Prop}

/-- From wherever it starts, the reader fails in no other way than `E` allows. -/
def Refuses (E : Fault → Prop) (r : Reader α) : Prop := ∀ c, Fails E (r.run c)

theorem refuses_pure (a : α) : Refuses E (pure a) := fun _ => trivial

theorem refuses_throw {e : Fault} (h : E e) : Refuses E (throw e : Reader α) := fun _ => h

theorem refuses_bind {r : Reader α} {f : α → Reader β} (hr : Refuses E r) (hf : ∀ a, Refuses E (f a)) :
    Refuses E (r >>= f) := by
  intro c
  rw [StateT.run_bind]
  exact fails_bind (hr c) fun p => hf p.1 p.2

theorem refuses_ite {p : Prop} [Decidable p] {r r' : Reader α} (h : Refuses E r) (h' : Refuses E r') :
    Refuses E (if p then r else r') := by
  split
  · exact h
  · exact h'

theorem refuses_get : Refuses E (get : Reader Cursor) := fun _ => trivial

theorem refuses_modify (f : Cursor → Cursor) : Refuses E (modify f : Reader Unit) := fun _ => trivial

theorem refuses_lift {x : Except Fault α} (h : Fails E x) : Refuses E (liftM x : Reader α) := by
  intro c
  cases x with
  | error e => exact h
  | ok a => trivial

theorem refuses_accept (char : Char) : Refuses E (accept char) := by
  refine refuses_bind refuses_get fun c => ?_
  split
  · split
    · exact refuses_bind (refuses_modify _) fun _ => refuses_pure _
    · exact refuses_pure _
  · exact refuses_pure _

theorem refuses_next (h : E .wrongValue) : Refuses E next := by
  refine refuses_bind refuses_get fun c => ?_
  split
  · exact refuses_throw h
  · exact refuses_bind (refuses_modify _) fun _ => refuses_pure _

theorem refuses_value (h : E .wrongKind) : Refuses E value := by
  refine refuses_bind refuses_get fun c => ?_
  split
  · exact refuses_throw h
  · exact refuses_bind (refuses_modify _) fun _ => refuses_pure _

theorem fails_index (v : Value) : Fails OfOperands (index v) := by
  cases v <;> trivial

theorem refuses_amount (hE : ∀ e, OfOperands e → E e) (limit : Nat) : Refuses E (amount limit) := by
  refine refuses_bind (refuses_accept _) fun starred => refuses_ite ?_ ?_
  · refine refuses_bind (refuses_value (hE _ trivial)) fun v => ?_
    refine refuses_bind (refuses_lift ((fails_index v.1).widen hE)) fun n => ?_
    exact refuses_ite (refuses_throw (hE _ trivial)) (refuses_pure _)
  · refine refuses_bind refuses_get fun c => refuses_bind (refuses_modify _) fun _ => ?_
    exact refuses_ite (refuses_pure _) (refuses_ite (refuses_throw (hE _ trivial)) (refuses_pure _))

theorem fails_entry (hE : ∀ e, OfOperands e → E e) (wide : Bool) (k : List Nat) {m : Value}
    (hm : m.kind = .table → E .missingKey) : Fails E (entry wide k m) := by
  cases m with
  | table entries =>
    rw [entry]
    split
    · trivial
    · exact hm rfl
  | _ => exact hE _ trivial

theorem refuses_selection (hE : ∀ e, OfOperands e → E e) {wide : Bool} {mapping : Option Value}
    (hm : ∀ m ∈ mapping, m.kind = .table → E .missingKey) :
    Refuses E (selection wide mapping) := by
  refine refuses_bind (refuses_accept _) fun selected => refuses_ite ?_ (refuses_pure _)
  cases mapping with
  | none => exact refuses_throw (hE _ trivial)
  | some m =>
    refine refuses_bind refuses_get fun c => ?_
    split
    · exact refuses_bind (refuses_lift (fails_entry hE wide _ (hm m rfl))) fun _ _ => trivial
    · exact refuses_throw (hE _ trivial)

theorem refuses_directive (hE : ∀ e, OfOperands e → E e) {wide : Bool} {mapping : Option Value}
    (hm : ∀ m ∈ mapping, m.kind = .table → E .missingKey) :
    Refuses E (directive wide mapping) := by
  refine refuses_bind (refuses_selection hE hm) fun _ => refuses_bind refuses_get fun c => ?_
  refine refuses_bind (refuses_modify _) fun _ => refuses_bind (refuses_amount hE _) fun width => ?_
  refine refuses_bind ?_ fun precision => refuses_bind ?_ fun _ => ?_
  · refine refuses_bind (refuses_accept _) fun pointed => refuses_ite ?_ (refuses_pure _)
    exact refuses_bind (refuses_amount hE _) fun _ => refuses_pure _
  · refine refuses_bind (refuses_accept _) fun short => refuses_ite (refuses_pure _) ?_
    exact refuses_bind (refuses_accept _) fun long =>
      refuses_ite (refuses_pure _) (refuses_accept _)
  · exact refuses_bind (refuses_next (hE _ trivial)) fun _ => refuses_pure _

theorem fails_whole (v : Value) : Fails OfOperands (whole v) := by
  unfold whole
  split
  · trivial
  · trivial
  · exact v.fails_toInt

theorem fails_integer (d : Directive) (base : Nat) (mark : List Char) (n : Int) :
    Fails OfOperands (integer d base mark n) := by
  unfold integer
  split <;> trivial

theorem fails_decimal (d : Directive) (style : DecimalStyle) (upper : Bool) (v : Value) :
    Fails OfOperands (decimal d style upper v) := by
  refine fails_bind ?_ fun _ => fails_pure _
  unfold binary
  split
  · split <;> trivial
  · trivial
  · trivial

theorem fails_single (wide : Bool) (v : Value) : Fails OfOperands (single wide v) := by
  unfold single
  split
  · split <;> trivial
  · split <;> trivial
  · exact fails_bind (fails_index v) fun n => fails_ite trivial (fails_pure _)

theorem fails_insertion (wide : Bool) (d : Directive) (v : Value) :
    Fails OfOperands (insertion wide d v) := by
  have quoted (ascii : Bool) : Fails OfOperands (literalWord d ascii v) :=
    fails_bind v.fails_literal_operand fun _ => fails_pure _
  refine fails_ite (fails_ite (fails_bind v.fails_display fun _ => fails_pure _) ?_) ?_
  · cases v <;> trivial
  refine fails_ite (quoted _) (fails_ite (quoted _) ?_)
  refine fails_ite (fails_bind (fails_whole v) fun n => fails_integer d 10 _ n) ?_
  refine fails_ite (fails_bind (fails_index v) fun n => fails_integer d 8 _ n) ?_
  refine fails_ite (fails_bind (fails_index v) fun n => fails_integer d 16 _ n) (fails_ite ?_ ?_)
  · exact fails_bind (fails_index v) fun n =>
      fails_bind (fails_integer d 16 _ n) fun _ => fails_pure _
  refine fails_ite (fails_decimal d _ _ v) (fails_ite (fails_decimal d _ _ v) ?_)
  refine fails_ite (fails_decimal d _ _ v) (fails_ite ?_ trivial)
  exact fails_bind (fails_single wide v) fun _ => fails_pure _

theorem fails_fill (hE : ∀ e, OfOperands e → E e) {wide : Bool} {mapping : Option Value}
    (hm : ∀ m ∈ mapping, m.kind = .table → E .missingKey) (written : List Nat)
    (supply : List (Value × Kept)) (template : List Nat) :
    Fails E (fill wide mapping written supply template) := by
  fun_induction fill wide mapping written supply template with
  | case1 => trivial
  | case2 => exact hE _ trivial
  | case3 _ _ _ _ _ ih => exact ih
  | case4 _ _ _ _ _ _ ih => exact ih
  | case5 written supply n rest _ _ ih =>
    refine fails_bind (refuses_directive hE hm _) fun p => ?_
    obtain ⟨d, c⟩ := p
    dsimp only
    split
    · exact hE .wrongKind trivial
    · refine fails_bind (fails_pure _) fun first => ?_
      refine fails_bind ((fails_insertion wide d first.1).widen hE) fun out => ?_
      exact fails_bind (ih c out) fun _ => fails_pure _

theorem fails_apply (wide : Bool) (template : List Nat) (argument : Value) :
    Fails (Fault.OfOperator argument) (apply wide template argument) := by
  refine fails_bind (fails_fill (fun e he => .inl he) ?_ _ _ _) fun _ => fails_pure _
  intro m hm hk
  cases argument with
  | list | table => cases hm; exact .inr ⟨rfl, hk⟩
  | bytes b =>
    cases wide with
    | false => cases hm
    | true =>
      cases hm
      cases hk
  | _ => cases hm

end Template

theorem Value.meets_mod (a b : Value) : Meets (Fault.OfOperator b) (a.mod b) Ordinary := by
  unfold mod
  split
  · exact meets_bind (Template.fails_apply true _ b) fun _ _ => trivial
  · exact meets_bind (Template.fails_apply false _ b) fun _ _ => trivial
  · exact (meets_numeric Number.meets_mod a b).widen fun _ he => .inl he

theorem ValueOperator.meets_apply (op : ValueOperator) (a b : Value) :
    Meets (Fault.OfOperator b) (op.apply a b) Ordinary := by
  have plain {x : Except Fault Value} (h : Meets OfOperands x Ordinary) :
      Meets (Fault.OfOperator b) x Ordinary := h.widen fun _ he => .inl he
  cases op with
  | add => exact plain (a.meets_add b)
  | sub => exact plain (Value.meets_numeric Number.meets_sub a b)
  | mul => exact plain (a.meets_mul b)
  | div => exact plain (Value.meets_numeric Number.meets_div a b)
  | floorDiv => exact plain (Value.meets_numeric Number.meets_floorDiv a b)
  | mod => exact a.meets_mod b
  | order o => exact plain (meets_bind (a.fails_order o b) fun _ _ => trivial)
  | member => exact plain (meets_bind (a.fails_member b) fun _ _ => trivial)
  | notMember => exact plain (meets_bind (a.fails_member b) fun _ _ => trivial)
  | equal | notEqual => trivial

/-- An operator gives an ordinary value, or it fails because of its operands. -/
theorem Operator.meets_apply (op : Operator) (a b : Object) :
    Meets (Fault.OfOperator b.value) (op.apply a b) fun o => o.value.Ordinary := by
  cases op with
  | identity expected => trivial
  | onValues op => exact meets_bind (op.meets_apply a.value b.value) fun _ hv => hv

end CallTime

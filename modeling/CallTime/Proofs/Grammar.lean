import CallTime.Proofs.Completion
import CallTime.Proofs.Defaults

/-!
The constants of a source.

A rule of the grammar hands on what holds of the tokens and of the rules it calls. Main statement: every
constant in a function of a module that is read is an ordinary value.
-/

namespace CallTime.Source

open Value (Ordinary)

namespace Number

variable {cs rest : List Char} {v : Value}

theorem eq_of_finish {w : Value} (h : finish w cs = some (v, rest)) : v = w := by
  unfold finish at h
  split at h <;> cases h
  rfl

theorem ordinary_based {base : Nat} (h : based base cs = some (v, rest)) : v.Ordinary := by
  obtain ⟨⟨ds, cs'⟩, -, h⟩ := Option.bind_eq_some_iff.mp h
  dsimp only at h
  split at h
  · cases h
  · split at h
    · cases h
    · rw [eq_of_finish h]
      exact trivial

theorem ordinary_integer {whole : List Nat} (h : decimal.integer whole cs = some (v, rest)) :
    v.Ordinary := by
  unfold decimal.integer at h
  split at h
  · split at h
    · cases h
    · rw [eq_of_finish h]
      exact trivial
  · split at h
    · cases h
    · rw [eq_of_finish h]
      exact trivial

theorem ordinary_decimal {whole places : List Nat} {pointed : Bool}
    (h : decimal whole places pointed cs = some (v, rest)) : v.Ordinary := by
  obtain ⟨⟨e, cs'⟩, -, h⟩ := Option.bind_eq_some_iff.mp h
  dsimp only at h
  split at h
  · split at h
    · rw [eq_of_finish h]
      exact trivial
    · split at h
      · rw [eq_of_finish h]
        exact trivial
      · exact ordinary_integer h
  · split at h
    · cases h
      exact trivial
    · exact ordinary_integer h

theorem ordinary_plain (h : scan.plain cs = some (v, rest)) : v.Ordinary := by
  obtain ⟨⟨whole, cs'⟩, -, h⟩ := Option.bind_eq_some_iff.mp h
  dsimp only at h
  split at h
  · obtain ⟨⟨places, cs''⟩, -, h⟩ := Option.bind_eq_some_iff.mp h
    exact ordinary_decimal h
  · exact ordinary_decimal h

theorem ordinary_scan (h : scan cs = some (v, rest)) : v.Ordinary := by
  unfold scan at h
  split at h
  · split at h
    · exact ordinary_based h
    · split at h
      · exact ordinary_based h
      · split at h
        · exact ordinary_based h
        · exact ordinary_plain h
  · exact ordinary_plain h

end Number

def Token.Plain (t : Token) : Prop := ∀ v, t.kind = .number v → v.Ordinary

namespace Scan

def State.Plain (s : State) : Prop := ∀ t ∈ s.tokens, t.Plain

variable {s t : State}

theorem State.Plain.emit (h : s.Plain) {k : TokenKind} (hk : ∀ v, k = .number v → v.Ordinary) :
    (s.emit k).Plain :=
  List.forall_mem_cons.mpr ⟨hk, h⟩

theorem plain_dedent {new : Indentation} {is : List Indentation} (h : dedent new s is = some t)
    (hs : s.Plain) : t.Plain := by
  induction is generalizing s with
  | nil =>
    rw [dedent] at h
    split at h <;> cases h
    exact hs
  | cons i is ih =>
    rw [dedent] at h
    split at h
    · exact ih h (hs.emit fun v hv => by cases hv)
    · split at h <;> cases h
      exact hs

theorem plain_indent {new : Indentation} (h : indent new s = some t) (hs : s.Plain) : t.Plain := by
  unfold indent at h
  split at h
  · split at h <;> cases h
    exact hs
  · split at h
    · split at h <;> cases h
      exact hs.emit (k := .indent) fun v hv => by cases hv
    · exact plain_dedent h hs

theorem plain_operatorToken (h : operatorToken s = some t) (hs : s.Plain) : t.Plain := by
  obtain ⟨op, -, h⟩ := Option.bind_eq_some_iff.mp h
  have hop := hs.emit (k := .operator (String.ofList op)) fun v hv => by cases hv
  dsimp only at h
  split at h
  · obtain ⟨brackets, -, h⟩ := Option.bind_eq_some_iff.mp h
    cases h
    exact hop
  · cases h
    exact hop

theorem not_number_of_nameToken {cs : List Char} {v : Value} : nameToken cs ≠ some (.number v) := by
  intro h
  unfold nameToken at h
  dsimp only at h
  split at h
  · cases h
  · split at h <;> cases h

theorem plain_token (h : token s = some t) (hs : s.Plain) : t.Plain := by
  unfold token at h
  split at h
  · cases h
  · split at h
    · cases h
    · cases h
      exact hs.emit fun v hv => by cases hv
    · split at h
      · obtain ⟨kind, hk, h⟩ := Option.bind_eq_some_iff.mp h
        cases h
        exact hs.emit fun v hv => absurd (hv ▸ hk) not_number_of_nameToken
      · split at h
        · obtain ⟨⟨v, rest⟩, hv, h⟩ := Option.bind_eq_some_iff.mp h
          cases h
          refine hs.emit fun w hw => ?_
          cases hw
          exact Number.ordinary_scan hv
        · exact plain_operatorToken h hs

theorem plain_run {fuel : Nat} {atStart : Bool} (h : run fuel atStart s = some t) (hs : s.Plain) :
    t.Plain := by
  induction fuel generalizing s atStart with
  | zero => cases h
  | succ fuel ih =>
    cases atStart with
    | true =>
      obtain ⟨⟨new, line, rest⟩, -, h⟩ := Option.bind_eq_some_iff.mp h
      dsimp only at h
      split at h
      · split at h
        · exact ih h hs
        · cases h
      · exact ih h hs
      · exact plain_dedent h hs
      · obtain ⟨s', hs', h⟩ := Option.bind_eq_some_iff.mp h
        exact ih h (plain_indent hs' hs)
    | false =>
      rw [run] at h
      split at h
      · cases h
      · exact ih h hs
      · split at h
        · exact ih h (hs.emit (k := .newline) fun v hv => by cases hv)
        · exact ih h hs
      · split at h
        · cases h
        · exact ih h hs
      · cases h
      · obtain ⟨s', hs', h⟩ := Option.bind_eq_some_iff.mp h
        exact ih h (plain_token hs' hs)

end Scan

theorem Token.plain_scan {line : Nat} {place : Place} {source : List Char} {ts : List Token}
    (h : scan line place source = some ts) : ∀ t ∈ ts, t.Plain := by
  obtain ⟨s, hs, h⟩ := Option.bind_eq_some_iff.mp h
  cases h
  intro t ht
  exact Scan.plain_run hs (List.forall_mem_nil _) t (List.mem_reverse.mp ht)

namespace Parser

variable {α β : Type} {p : Parser α} {Q : α → Prop}

/-- From plain tokens the parser gives what has `Q`, and leaves plain tokens. -/
def Gives (p : Parser α) (Q : α → Prop) : Prop :=
  ∀ ts, (∀ t ∈ ts, t.Plain) → ∀ a rest, p ts = some (a, rest) → Q a ∧ ∀ t ∈ rest, t.Plain

theorem gives_pure {a : α} (h : Q a) : Gives (pure a) Q := by
  intro ts hts b rest hb
  cases hb
  exact ⟨h, hts⟩

theorem gives_failure : Gives (failure : Parser α) Q := by
  intro ts _ a rest h
  cases h

theorem gives_bind {f : α → Parser β} {R : β → Prop} (hp : Gives p Q)
    (hf : ∀ a, Q a → Gives (f a) R) : Gives (p >>= f) R := by
  intro ts hts b rest hb
  obtain ⟨⟨a, ts'⟩, ha, hb⟩ := Option.bind_eq_some_iff.mp hb
  obtain ⟨hQ, hts'⟩ := hp ts hts a ts' ha
  exact hf a hQ ts' hts' b rest hb

theorem gives_seq {f : α → Parser β} {R : β → Prop} (hp : Gives p fun _ => True)
    (hf : ∀ a, Gives (f a) R) : Gives (p >>= f) R :=
  gives_bind hp fun a _ => hf a

theorem gives_unless {c : Prop} [Decidable c] {f : Unit → Parser α} (h : Gives (f ()) Q) :
    Gives (if c then failure >>= f else f ()) Q := by
  split
  · exact gives_seq gives_failure fun _ => h
  · exact h

theorem Gives.mono {R : α → Prop} (hp : Gives p Q) (h : ∀ a, Q a → R a) : Gives p R :=
  fun ts hts a rest ha => (hp ts hts a rest ha).imp_left (h a)

theorem gives_ite {c : Prop} [Decidable c] {q : Parser α} (hp : Gives p Q) (hq : Gives q Q) :
    Gives (if c then p else q) Q := by
  split
  · exact hp
  · exact hq

theorem gives_get : Gives get fun ts => ∀ t ∈ ts, t.Plain := by
  intro ts hts a rest h
  cases h
  exact ⟨hts, hts⟩

theorem gives_set {ts : List Token} (h : ∀ t ∈ ts, t.Plain) : Gives (set ts) fun _ => True := by
  intro ts' _ a rest ha
  cases ha
  exact ⟨trivial, h⟩

theorem gives_looking {f : List Token → Parser α} (h : ∀ ts, (∀ t ∈ ts, t.Plain) → Gives (f ts) Q) :
    Gives (get >>= f) Q :=
  gives_bind gives_get h

theorem gives_line : Gives line fun _ => True := by
  refine gives_looking fun ts _ => ?_
  split <;> exact gives_pure trivial

theorem gives_place : Gives place fun _ => True := by
  refine gives_looking fun ts _ => ?_
  split <;> exact gives_pure trivial

theorem gives_sees (s : String) : Gives (sees s) fun _ => True :=
  gives_looking fun _ _ => gives_pure trivial

theorem gives_seesNext (s : String) : Gives (seesNext s) fun _ => True :=
  gives_looking fun _ _ => gives_pure trivial

theorem gives_skip : Gives skip fun _ => True := by
  intro ts hts a rest h
  cases h
  exact ⟨trivial, fun t ht => hts t (List.mem_of_mem_drop ht)⟩

theorem gives_accept (s : String) : Gives (accept s) fun _ => True := by
  refine gives_seq (gives_sees s) fun _ => gives_ite ?_ (gives_pure trivial)
  exact gives_seq gives_skip fun _ => gives_pure trivial

theorem gives_expect (s : String) : Gives (expect s) fun _ => True :=
  gives_seq (gives_accept s) fun _ => gives_ite gives_failure (gives_pure trivial)

theorem gives_oneOf {γ : Type} {words : List (String × γ)} {R : γ → Prop}
    (h : ∀ w ∈ words, R w.2) : Gives (oneOf words) fun o => ∀ g ∈ o, R g := by
  refine gives_looking fun ts _ => ?_
  split
  · split
    · next hw =>
      refine gives_seq gives_skip fun _ => gives_pure fun g hg => ?_
      cases hg
      exact h _ (List.mem_of_find?_eq_some hw)
    · exact gives_pure fun g hg => by cases hg
  · exact gives_pure fun g hg => by cases hg

theorem gives_name? : Gives name? fun _ => True := by
  refine gives_looking fun ts _ => ?_
  split <;> exact gives_pure trivial

theorem gives_name : Gives name fun _ => True := by
  refine gives_seq gives_name? fun o => ?_
  split
  · exact gives_seq gives_skip fun _ => gives_pure trivial
  · exact gives_failure

theorem gives_softKeyword (s : String) : Gives (softKeyword s) fun _ => True :=
  gives_seq gives_name fun _ => gives_ite gives_failure (gives_pure trivial)

theorem gives_newline : Gives newline fun _ => True := by
  refine gives_looking fun ts hts => ?_
  split
  · exact gives_set fun t ht => hts t (List.mem_cons_of_mem _ ht)
  · exact gives_failure

theorem gives_indent : Gives indent fun _ => True := by
  refine gives_looking fun ts hts => ?_
  split
  · exact gives_set fun t ht => hts t (List.mem_cons_of_mem _ ht)
  · exact gives_failure

theorem gives_dedent : Gives dedent fun _ => True := by
  refine gives_looking fun ts hts => ?_
  split
  · exact gives_set fun t ht => hts t (List.mem_cons_of_mem _ ht)
  · exact gives_failure

theorem gives_attempt (h : Gives p Q) : Gives (attempt p) fun o => ∀ a ∈ o, Q a := by
  intro ts hts o rest ho
  unfold attempt at ho
  split at ho
  · next a rest' ha =>
    cases ho
    obtain ⟨hQ, hrest⟩ := h ts hts a rest ha
    exact ⟨fun b hb => Option.some.inj hb ▸ hQ, hrest⟩
  · cases ho
    exact ⟨fun b hb => (by cases hb), hts⟩

theorem gives_many (bound : Nat) (h : Gives p Q) : Gives (many bound p) fun as => ∀ a ∈ as, Q a := by
  induction bound with
  | zero => exact gives_pure (List.forall_mem_nil _)
  | succ bound ih =>
    refine gives_bind (gives_attempt h) fun o ho => ?_
    cases o with
    | none => exact gives_pure (List.forall_mem_nil _)
    | some a =>
      exact gives_bind ih fun as has => gives_pure (List.forall_mem_cons.mpr ⟨ho a rfl, has⟩)

theorem gives_many1 (bound : Nat) (h : Gives p Q) : Gives (many1 bound p) fun as => ∀ a ∈ as, Q a :=
  gives_bind h fun _ ha => gives_bind (gives_many bound h) fun _ has =>
    gives_pure (List.forall_mem_cons.mpr ⟨ha, has⟩)

theorem gives_chain {step : α → Parser (Option α)} (bound : Nat)
    (h : ∀ a, Q a → Gives (step a) fun o => ∀ b ∈ o, Q b) {a : α} (ha : Q a) :
    Gives (chain bound step a) Q := by
  induction bound generalizing a with
  | zero => exact gives_pure ha
  | succ bound ih =>
    refine gives_bind (h a ha) fun o ho => ?_
    cases o with
    | none => exact gives_pure ha
    | some b => exact ih (ho b rfl)

theorem gives_commaRest (bound : Nat) (h : Gives p Q) :
    Gives (commaRest bound p) fun r => ∀ a ∈ r.1, Q a := by
  induction bound with
  | zero => exact gives_pure (List.forall_mem_nil _)
  | succ bound ih =>
    refine gives_seq (gives_accept ",") fun _ => gives_ite ?_ (gives_pure (List.forall_mem_nil _))
    refine gives_bind (gives_attempt h) fun o ho => ?_
    cases o with
    | none => exact gives_pure (List.forall_mem_nil _)
    | some a =>
      exact gives_bind ih fun r hr => gives_pure (List.forall_mem_cons.mpr ⟨ho a rfl, hr⟩)

theorem gives_commaList (bound : Nat) (h : Gives p Q) :
    Gives (commaList bound p) fun r => ∀ a ∈ r.1, Q a :=
  gives_bind h fun _ ha => gives_bind (gives_commaRest bound h) fun _ hr =>
    gives_pure (List.forall_mem_cons.mpr ⟨ha, hr⟩)

end Parser

namespace Expr

variable {e x : Expr}

def Plain (e : Expr) : Prop := ∀ line v spelling, e.Holds (.constant line v spelling) → v.Ordinary

def isConstant : Expr → Bool
  | .constant _ _ _ => true
  | _ => false

theorem Plain.holds (h : e.Plain) (hx : e.Holds x) : x.Plain :=
  fun line v spelling hv => h line v spelling (hx.trans hv)

theorem Plain.child (h : e.Plain) (hx : x ∈ e.children) : x.Plain := h.holds (holds_child hx)

theorem plain_constant (line : Nat) {v : Value} (h : v.Ordinary) (spelling : Spelling) :
    (constant line v spelling).Plain := by
  intro line' w spelling' hw
  obtain hw | ⟨c, hc, -⟩ := Relation.ReflTransGen.cases_head hw
  · cases hw
    exact h
  · cases hc

theorem plain_of_children (hc : ∀ c ∈ e.children, c.Plain) (h : e.isConstant = false) : e.Plain := by
  intro line v marked hv
  obtain rfl | ⟨c, hc', hv⟩ := Relation.ReflTransGen.cases_head hv
  · cases h
  · exact hc c hc' line v marked hv

@[simp] theorem plain_name (line : Nat) (id : String) (use : NameUse) : (name line id use).Plain :=
  plain_of_children (List.forall_mem_nil _) rfl

theorem Plain.call_outerCalls (h : e.Plain) {s : CallSite Expr} (hs : s ∈ e.outerCalls) :
    (call s).Plain := by
  cases e with
  | call site =>
    obtain rfl := List.mem_singleton.mp hs
    exact h
  | lambda => cases hs
  | _ => exact h.holds (holds_innerCalls hs)

mutual

theorem plain_asTarget? {use : NameUse} {star : Bool} {e t : Expr} (he : e.Plain)
    (h : e.asTarget? use star = some t) : t.Plain := by
  cases e with
  | name line id =>
    cases h
    exact plain_name _ _ _
  | «attribute» =>
    cases h
    exact he
  | subscript =>
    cases h
    exact he
  | starred line value =>
    rw [asTarget?] at h
    split at h
    · obtain ⟨t', ht, rfl⟩ := Option.map_eq_some_iff.mp h
      have ht' := plain_asTarget? (he.child List.mem_cons_self) ht
      exact plain_of_children (List.forall_mem_singleton.mpr ht') rfl
    · cases h
  | list line items =>
    obtain ⟨ts, hts, rfl⟩ := Option.map_eq_some_iff.mp h
    exact plain_of_children (plain_asTargets? (fun x hx => he.child hx) hts) rfl
  | tuple line items =>
    obtain ⟨ts, hts, rfl⟩ := Option.map_eq_some_iff.mp h
    exact plain_of_children (plain_asTargets? (fun x hx => he.child hx) hts) rfl
  | _ => cases h
termination_by structural e

theorem plain_asTargets? {use : NameUse} {star : Bool} {es ts : List Expr} (hes : ∀ e ∈ es, e.Plain)
    (h : asTargets? use star es = some ts) : ∀ t ∈ ts, t.Plain := by
  cases es with
  | nil =>
    cases h
    exact List.forall_mem_nil _
  | cons e es =>
    obtain ⟨he, hes⟩ := List.forall_mem_cons.mp hes
    obtain ⟨t, ht, h⟩ := Option.bind_eq_some_iff.mp h
    obtain ⟨ts', hts, h⟩ := Option.bind_eq_some_iff.mp h
    cases h
    exact List.forall_mem_cons.mpr ⟨plain_asTarget? he ht, plain_asTargets? hes hts⟩
termination_by structural es

end

theorem plain_asSingleTarget? {t : Expr} (he : e.Plain) (h : e.asSingleTarget? = some t) :
    t.Plain := by
  cases e with
  | name line id =>
    cases h
    exact plain_name _ _ _
  | «attribute» =>
    cases h
    exact he
  | subscript =>
    cases h
    exact he
  | _ => cases h

end Expr

namespace Grammar

open CallTime.Source.Parser CallTime.Source.Expr

structure Rules.Plain (r : Rules) : Prop where
  atom : Gives r.atom Expr.Plain
  factor : Gives r.factor Expr.Plain
  inversion : Gives r.inversion Expr.Plain
  bitwiseOr : Gives r.bitwiseOr Expr.Plain
  disjunction : Gives r.disjunction Expr.Plain
  expression : Gives r.expression Expr.Plain

variable {r : Rules}

theorem gives_nameBefore? (s : String) : Gives (nameBefore? s) fun _ => True := by
  refine gives_seq gives_name? fun o => ?_
  cases o with
  | none => exact gives_pure trivial
  | some id => exact gives_seq (gives_seesNext s) fun _ => gives_pure trivial

theorem gives_namedExpression (h : r.Plain) : Gives (namedExpression r) Expr.Plain := by
  refine gives_seq gives_line fun line => gives_seq (gives_nameBefore? ":=") fun o => ?_
  cases o with
  | some id =>
    refine gives_seq gives_skip fun _ => gives_seq gives_skip fun _ => ?_
    exact gives_bind h.expression fun e he => gives_pure (plain_of_children (by simp [children, he]) rfl)
  | none =>
    refine gives_bind h.expression fun e he => gives_seq (gives_sees ":=") fun _ => ?_
    exact gives_unless (gives_pure he)

theorem gives_starred (h : r.Plain) (line : Nat) {item : Parser Expr} (hi : Gives item Expr.Plain) :
    Gives (do if ← accept "*" then return .starred line (← r.bitwiseOr) else item) Expr.Plain := by
  refine gives_seq (gives_accept "*") fun _ => gives_ite ?_ hi
  exact gives_bind h.bitwiseOr fun e he => gives_pure (plain_of_children (by simp [children, he]) rfl)

theorem gives_starNamedExpression (h : r.Plain) : Gives (starNamedExpression r) Expr.Plain :=
  gives_seq gives_line fun line => gives_starred h line (gives_namedExpression h)

theorem gives_starExpression (h : r.Plain) : Gives (starExpression r) Expr.Plain :=
  gives_seq gives_line fun line => gives_starred h line h.expression

theorem plain_tupleOr (line : Nat) {items : List Expr} (trailing : Bool)
    (h : ∀ e ∈ items, e.Plain) : (tupleOr line items trailing).Plain := by
  unfold tupleOr
  split
  · exact h _ List.mem_cons_self
  · exact plain_of_children h rfl

theorem gives_starExpressions (h : r.Plain) : Gives (starExpressions r) Expr.Plain :=
  gives_seq gives_line fun line => gives_bind (gives_commaList _ (gives_starExpression h))
    fun _ hr => gives_pure (plain_tupleOr line _ hr)

theorem gives_yieldExpression (h : r.Plain) : Gives (yieldExpression r) Expr.Plain := by
  refine gives_seq gives_line fun line => gives_seq (gives_expect "yield") fun _ => ?_
  refine gives_seq (gives_accept "from") fun _ => gives_ite ?_ ?_
  · exact gives_bind h.expression fun e he => gives_pure (plain_of_children (by simp [children, he]) rfl)
  · refine gives_bind (gives_attempt (gives_starExpressions h)) fun o ho => gives_pure ?_
    exact plain_of_children (by simpa [children] using ho) rfl

theorem gives_loopTargets (h : r.Plain) : Gives (loopTargets r) Expr.Plain := by
  refine gives_seq gives_line fun line => ?_
  have hitem : Gives (do
      let line ← Parser.line
      if ← accept "*" then return .starred line (← r.bitwiseOr) else r.bitwiseOr) Expr.Plain :=
    gives_seq gives_line fun line => gives_starred h line h.bitwiseOr
  refine gives_bind (gives_commaList _ hitem) fun items hitems => ?_
  dsimp only
  split
  · next e he => exact gives_pure (plain_asTarget? (plain_tupleOr line _ hitems) he)
  · exact gives_failure

def PlainClause (c : Clause Expr) : Prop := ∀ e ∈ c.parts, e.Plain

theorem gives_clause (h : r.Plain) : Gives (clause r) PlainClause := by
  refine gives_seq (gives_accept "async") fun _ => gives_seq (gives_expect "for") fun _ => ?_
  refine gives_bind (gives_loopTargets h) fun target ht => gives_seq (gives_expect "in") fun _ => ?_
  refine gives_bind h.disjunction fun source hs => ?_
  have hcondition : Gives (do expect "if"; r.disjunction) Expr.Plain :=
    gives_seq (gives_expect "if") fun _ => h.disjunction
  refine gives_bind (gives_many _ hcondition) fun conditions hc => gives_pure ?_
  simpa [PlainClause, Clause.parts, ht, hs] using hc

theorem gives_clauses (h : r.Plain) : Gives (clauses r) fun cs => ∀ c ∈ cs, PlainClause c :=
  gives_many1 _ (gives_clause h)

theorem gives_seesClause : Gives seesClause fun _ => True :=
  gives_seq (gives_sees "for") fun _ => gives_ite (gives_pure trivial) (gives_sees "async")

theorem plain_parts {cs : List (Clause Expr)} (h : ∀ c ∈ cs, PlainClause c) :
    ∀ e ∈ cs.flatMap Clause.parts, e.Plain := by
  intro e he
  obtain ⟨c, hc, he⟩ := List.mem_flatMap.mp he
  exact h c hc e he

def Piece.Plain : Piece → Prop
  | .text _ => True
  | .field e => e.Plain

theorem Piece.plain_merge {ps : List Piece} (h : ∀ p ∈ ps, p.Plain) : ∀ p ∈ merge ps, p.Plain := by
  induction ps with
  | nil => exact h
  | cons p ps ih =>
    obtain ⟨hp, hps⟩ := List.forall_mem_cons.mp h
    replace ih := ih hps
    cases p with
    | field e => exact List.forall_mem_cons.mpr ⟨hp, ih⟩
    | text cs =>
      rw [merge]
      split
      · next hm =>
        rw [hm] at ih
        exact List.forall_mem_cons.mpr ⟨trivial, (List.forall_mem_cons.mp ih).2⟩
      · split
        · exact ih
        · exact List.forall_mem_cons.mpr ⟨trivial, ih⟩

theorem Piece.plain_exprs (line : Nat) (spelling : Spelling) {ps : List Piece}
    (h : ∀ p ∈ ps, p.Plain) : ∀ e ∈ (merge ps).map (Piece.expr line spelling), e.Plain := by
  refine List.forall_mem_map.mpr fun p hp => ?_
  cases p with
  | text cs => exact plain_constant (v := .str ⟨cs⟩) line trivial spelling
  | field e => exact plain_merge h _ hp

theorem plain_fieldExpression (h : r.Plain) {line : Nat} {place : Place} {text : List Char} {e : Expr}
    (he : fieldExpression r line place text = some e) : e.Plain := by
  unfold fieldExpression at he
  dsimp only at he
  split at he
  · cases he
  · obtain ⟨tokens, ht, he⟩ := Option.bind_eq_some_iff.mp he
    obtain ⟨⟨e', rest⟩, ha, he⟩ := Option.bind_eq_some_iff.mp he
    dsimp only at he
    split at he
    · cases he
      exact (h.atom tokens (Token.plain_scan ht) e _ ha).1
    · cases he

theorem plain_pieces (h : r.Plain) {isRaw : Bool} {place : Place} {first fuel level line : Nat}
    {cs rest : List Char} {ps : List Piece}
    (hp : pieces r isRaw first place fuel level line cs = some (ps, rest)) :
    ∀ p ∈ ps, p.Plain := by
  have hcons {text shown : List Nat} {e : Expr} {ps : List Piece} (he : e.Plain)
      (hps : ∀ p ∈ ps, p.Plain) : ∀ p ∈ .text text :: .text shown :: .field e :: ps, p.Plain := by
    simp only [List.forall_mem_cons, Piece.Plain]
    exact ⟨trivial, trivial, he, hps⟩
  induction fuel generalizing level line cs rest ps with
  | zero => cases hp
  | succ fuel ih =>
    obtain ⟨⟨raw, doubled, after⟩, -, hp⟩ := Option.bind_eq_some_iff.mp hp
    obtain ⟨text, -, hp⟩ := Option.bind_eq_some_iff.mp hp
    dsimp only at hp
    split at hp
    · obtain ⟨⟨qs, rest'⟩, hq, hp⟩ := Option.bind_eq_some_iff.mp hp
      cases hp
      exact List.forall_mem_cons.mpr ⟨trivial, ih hq⟩
    · split at hp
      · split at hp
        · cases hp
        · obtain ⟨source, -, hp⟩ := Option.bind_eq_some_iff.mp hp
          obtain ⟨e, he, hp⟩ := Option.bind_eq_some_iff.mp hp
          obtain ⟨conv, -, hp⟩ := Option.bind_eq_some_iff.mp hp
          replace he := plain_fieldExpression h he
          split at hp
          · obtain ⟨⟨qs, after'⟩, hq, hp⟩ := Option.bind_eq_some_iff.mp hp
            have hspec := Piece.plain_exprs first { place } (ih hq)
            obtain ⟨_, hs, hp⟩ := Option.bind_eq_some_iff.mp hp
            cases hs
            split at hp
            · obtain ⟨⟨rs, rest'⟩, hr, hp⟩ := Option.bind_eq_some_iff.mp hp
              cases hp
              refine hcons (plain_of_children ?_ rfl) (ih hr)
              exact List.forall_mem_cons.mpr
                ⟨he, List.forall_mem_singleton.mpr (plain_of_children hspec rfl)⟩
            · cases hp
          · obtain ⟨_, hs, hp⟩ := Option.bind_eq_some_iff.mp hp
            cases hs
            split at hp
            · obtain ⟨⟨rs, rest'⟩, hr, hp⟩ := Option.bind_eq_some_iff.mp hp
              cases hp
              exact hcons (plain_of_children (List.forall_mem_singleton.mpr he) rfl) (ih hr)
            · cases hp
      · cases hp
        exact List.forall_mem_singleton.mpr trivial

theorem plain_stringPieces (h : r.Plain) {first : Nat} {t : StringToken} {ps : List Piece}
    (hp : stringPieces r first t = some ps) : ∀ p ∈ ps, p.Plain := by
  unfold stringPieces at hp
  split at hp
  · obtain ⟨⟨qs, rest⟩, hq, hp⟩ := Option.bind_eq_some_iff.mp hp
    dsimp only at hp
    split at hp <;> cases hp
    exact plain_pieces h hq
  · obtain ⟨text, -, hp⟩ := Option.bind_eq_some_iff.mp hp
    cases hp
    exact List.forall_mem_singleton.mpr trivial

theorem exists_of_mapM {α β : Type} {f : α → Option β} {as : List α} {bs : List β}
    (h : as.mapM f = some bs) {b : β} (hb : b ∈ bs) : ∃ a ∈ as, f a = some b := by
  induction as generalizing bs with
  | nil =>
    cases h
    cases hb
  | cons a as ih =>
    rw [List.mapM_cons] at h
    obtain ⟨b', hb', h⟩ := Option.bind_eq_some_iff.mp h
    obtain ⟨bs', hbs, h⟩ := Option.bind_eq_some_iff.mp h
    cases h
    obtain rfl | hb := List.mem_cons.mp hb
    · exact ⟨a, List.mem_cons_self, hb'⟩
    · obtain ⟨a', ha', h⟩ := ih hbs hb
      exact ⟨a', List.mem_cons_of_mem a ha', h⟩

theorem gives_stringToken : Gives stringToken fun _ => True := by
  refine gives_looking fun ts hts => ?_
  split
  · exact gives_seq (gives_set fun t ht => hts t (List.mem_cons_of_mem _ ht)) fun _ => gives_pure trivial
  · exact gives_failure

theorem gives_strings (h : r.Plain) : Gives (strings r) Expr.Plain := by
  refine gives_seq gives_line fun line => gives_seq gives_place fun place => ?_
  refine gives_seq ((gives_many1 _ gives_stringToken).mono fun _ _ => trivial) fun tokens => ?_
  dsimp only
  refine gives_ite ?_ (gives_ite gives_failure ?_)
  · split
    · exact gives_pure (plain_constant (v := .bytes _) line trivial _)
    · exact gives_failure
  · split
    · exact gives_failure
    · next parts hparts =>
      have hplain : ∀ p ∈ parts.flatten, p.Plain := by
        intro p hp
        obtain ⟨ps, hps, hp⟩ := List.mem_flatten.mp hp
        obtain ⟨t, -, ht⟩ := exists_of_mapM hparts hps
        exact plain_stringPieces h ht p hp
      refine gives_ite (gives_pure (plain_of_children (Piece.plain_exprs line _ hplain) rfl)) ?_
      split <;> exact gives_pure (plain_constant (v := .str _) line trivial _)

theorem gives_parenthesized (h : r.Plain) : Gives (parenthesized r) Expr.Plain := by
  refine gives_seq gives_line fun line => gives_seq (gives_expect "(") fun _ => ?_
  refine gives_seq (gives_accept ")") fun _ => gives_ite ?_ ?_
  · exact gives_pure (plain_of_children (List.forall_mem_nil _) rfl)
  refine gives_seq (gives_sees "yield") fun _ => gives_ite ?_ ?_
  · refine gives_bind (gives_yieldExpression h) fun e he => ?_
    exact gives_seq (gives_expect ")") fun _ => gives_pure he
  refine gives_bind (gives_starNamedExpression h) fun e he => ?_
  refine gives_seq gives_seesClause fun _ => gives_ite (gives_unless ?_) ?_
  · refine gives_bind (gives_clauses h) fun cs hcs => gives_seq (gives_expect ")") fun _ => gives_pure ?_
    exact plain_of_children (List.forall_mem_cons.mpr ⟨he, plain_parts hcs⟩) rfl
  · refine gives_bind (gives_commaRest _ (gives_starNamedExpression h)) fun es hes => ?_
    refine gives_seq (gives_expect ")") fun _ => gives_ite (gives_unless (gives_pure he)) (gives_pure ?_)
    exact plain_of_children (List.forall_mem_cons.mpr ⟨he, hes⟩) rfl

theorem gives_bracketed (h : r.Plain) : Gives (bracketed r) Expr.Plain := by
  refine gives_seq gives_line fun line => gives_seq (gives_expect "[") fun _ => ?_
  refine gives_seq (gives_accept "]") fun _ => gives_ite ?_ ?_
  · exact gives_pure (plain_of_children (List.forall_mem_nil _) rfl)
  refine gives_bind (gives_starNamedExpression h) fun e he => ?_
  refine gives_seq gives_seesClause fun _ => gives_ite (gives_unless ?_) ?_
  · refine gives_bind (gives_clauses h) fun cs hcs => gives_seq (gives_expect "]") fun _ => gives_pure ?_
    exact plain_of_children (List.forall_mem_cons.mpr ⟨he, plain_parts hcs⟩) rfl
  · refine gives_bind (gives_commaRest _ (gives_starNamedExpression h)) fun es hes => ?_
    refine gives_seq (gives_expect "]") fun _ => gives_pure ?_
    exact plain_of_children (List.forall_mem_cons.mpr ⟨he, hes⟩) rfl

def PlainItem (i : DictItem Expr) : Prop := (∀ e ∈ i.key, e.Plain) ∧ i.value.Plain

theorem gives_dictItem (h : r.Plain) : Gives (dictItem r) PlainItem := by
  refine gives_seq (gives_accept "**") fun _ => gives_ite ?_ ?_
  · exact gives_bind h.bitwiseOr fun e he => gives_pure ⟨fun x hx => (by cases hx), he⟩
  · refine gives_bind h.expression fun key hk => gives_seq (gives_expect ":") fun _ => ?_
    exact gives_bind h.expression fun e he => gives_pure ⟨fun x hx => Option.some.inj hx ▸ hk, he⟩

theorem gives_dictRest (h : r.Plain) (line : Nat) {first : DictItem Expr} (hf : PlainItem first) :
    Gives (dictRest r line first) Expr.Plain := by
  refine gives_bind (gives_commaRest _ (gives_dictItem h)) fun items hitems => ?_
  refine gives_seq (gives_expect _) fun _ => gives_pure (plain_of_children (fun c hc => ?_) rfl)
  have hall := List.forall_mem_cons.mpr ⟨hf, hitems⟩
  obtain hc | hc := List.mem_append.mp hc
  · obtain ⟨i, hi, hk⟩ := List.mem_filterMap.mp hc
    exact (hall i hi).1 c hk
  · obtain ⟨i, hi, rfl⟩ := List.mem_map.mp hc
    exact (hall i hi).2

theorem gives_setRest (h : r.Plain) (line : Nat) {first : Expr} (hf : first.Plain) :
    Gives (setRest r line first) Expr.Plain := by
  refine gives_seq gives_seesClause fun _ => gives_ite (gives_unless ?_) ?_
  · refine gives_bind (gives_clauses h) fun cs hcs => gives_seq (gives_expect _) fun _ => gives_pure ?_
    exact plain_of_children (List.forall_mem_cons.mpr ⟨hf, plain_parts hcs⟩) rfl
  · refine gives_bind (gives_commaRest _ (gives_starNamedExpression h)) fun es hes => ?_
    refine gives_seq (gives_expect _) fun _ => gives_pure ?_
    exact plain_of_children (List.forall_mem_cons.mpr ⟨hf, hes⟩) rfl

theorem gives_braced (h : r.Plain) : Gives (braced r) Expr.Plain := by
  refine gives_seq gives_line fun line => gives_seq (gives_expect _) fun _ => ?_
  refine gives_seq (gives_accept _) fun _ => gives_ite ?_ ?_
  · exact gives_pure (plain_of_children (List.forall_mem_nil _) rfl)
  refine gives_seq (gives_accept "**") fun _ => gives_ite ?_ ?_
  · exact gives_bind h.bitwiseOr fun e he => gives_dictRest h line ⟨fun x hx => (by cases hx), he⟩
  refine gives_seq (gives_nameBefore? ":=") fun _ => ?_
  refine gives_bind (gives_starNamedExpression h) fun e he => ?_
  refine gives_seq (gives_accept ":") fun _ => gives_ite ?_ (gives_setRest h line he)
  refine gives_bind h.expression fun value hv => ?_
  refine gives_seq gives_seesClause fun _ => gives_ite ?_ ?_
  · refine gives_bind (gives_clauses h) fun cs hcs => gives_seq (gives_expect _) fun _ => gives_pure ?_
    exact plain_of_children
      (List.forall_mem_cons.mpr ⟨he, List.forall_mem_cons.mpr ⟨hv, plain_parts hcs⟩⟩) rfl
  · exact gives_dictRest h line ⟨fun x hx => Option.some.inj hx ▸ he, hv⟩

theorem ordinary_constants : ∀ w ∈ constants, w.2.Ordinary := by
  simp only [constants, List.forall_mem_cons, List.not_mem_nil, false_imp_iff, implies_true, and_true]
  exact ⟨trivial, trivial, trivial, trivial⟩

theorem gives_atom (h : r.Plain) : Gives (atom r) Expr.Plain := by
  refine gives_seq gives_line fun line => gives_seq gives_place fun place => ?_
  refine gives_looking fun ts hts => ?_
  split
  · exact gives_seq gives_skip fun _ => gives_pure (plain_name _ _ _)
  · next v hv =>
    obtain ⟨t, ht, hk⟩ := Option.map_eq_some_iff.mp hv
    have hordinary := hts t (List.mem_of_mem_head? ht) v hk
    exact gives_seq gives_skip fun _ => gives_pure (plain_constant line hordinary _)
  · exact gives_strings h
  · exact gives_parenthesized h
  · exact gives_bracketed h
  · exact gives_braced h
  · refine gives_bind (gives_oneOf ordinary_constants) fun o ho => ?_
    cases o with
    | some v => exact gives_pure (plain_constant line (ho v rfl) _)
    | none => exact gives_failure

def Argument.Plain : Argument → Prop
  | .plain e => e.Plain
  | .keyword k => k.value.Plain

theorem gives_argument (h : r.Plain) (phase : ArgumentPhase) :
    Gives (argument r phase) fun a => a.1.Plain := by
  refine gives_seq gives_line fun line => gives_seq (gives_accept "**") fun _ => gives_ite ?_ ?_
  · exact gives_bind h.expression fun e he => gives_pure he
  refine gives_seq (gives_accept "*") fun _ => gives_ite (gives_unless ?_) ?_
  · refine gives_bind h.expression fun e he => gives_pure ?_
    exact plain_of_children (List.forall_mem_singleton.mpr he) rfl
  refine gives_seq (gives_nameBefore? "=") fun o => ?_
  cases o with
  | some id =>
    refine gives_seq gives_skip fun _ => gives_seq gives_skip fun _ => ?_
    exact gives_bind h.expression fun e he => gives_pure he
  | none =>
    refine gives_unless (gives_bind (gives_namedExpression h) fun e he => ?_)
    exact gives_seq (gives_sees "=") fun _ => gives_unless (gives_pure he)

theorem gives_argumentRest (h : r.Plain) (bound : Nat) (phase : ArgumentPhase) :
    Gives (argumentRest r bound phase) fun as => ∀ a ∈ as, a.Plain := by
  induction bound generalizing phase with
  | zero => exact gives_pure (List.forall_mem_nil _)
  | succ bound ih =>
    refine gives_seq (gives_accept ",") fun _ => gives_ite ?_ (gives_pure (List.forall_mem_nil _))
    refine gives_bind (gives_attempt (gives_argument h phase)) fun o ho => ?_
    cases o with
    | none => exact gives_pure (List.forall_mem_nil _)
    | some a =>
      exact gives_bind (ih a.2) fun as has => gives_pure (List.forall_mem_cons.mpr ⟨ho a rfl, has⟩)

theorem gives_arguments (h : r.Plain) (callLine : Option Nat) :
    Gives (arguments r callLine) fun as => ∀ a ∈ as, a.Plain := by
  refine gives_seq (gives_accept ")") fun _ => gives_ite (gives_pure (List.forall_mem_nil _)) ?_
  refine gives_bind (gives_argument h .positional) fun a ha => ?_
  obtain ⟨a, phase⟩ := a
  have hrest : Gives (do
      let as ← argumentRest r r.bound phase
      expect ")"
      return a :: as) fun as => ∀ a ∈ as, a.Plain := by
    refine gives_bind (gives_argumentRest h _ phase) fun as has => ?_
    exact gives_seq (gives_expect ")") fun _ => gives_pure (List.forall_mem_cons.mpr ⟨ha, has⟩)
  dsimp only
  split
  · refine gives_seq gives_seesClause fun _ => gives_ite ?_ hrest
    refine gives_bind (gives_clauses h) fun cs hcs => gives_seq (gives_expect ")") fun _ => gives_pure ?_
    refine List.forall_mem_singleton.mpr (plain_of_children ?_ rfl)
    exact List.forall_mem_cons.mpr ⟨ha, plain_parts hcs⟩
  · exact hrest

theorem plain_makeCall (line : Nat) {function : Expr} (hf : function.Plain) {as : List Argument}
    (h : ∀ a ∈ as, a.Plain) : (makeCall line function as).Plain := by
  refine plain_of_children (fun c hc => ?_) rfl
  obtain hc | hc := List.mem_append.mp hc
  · obtain rfl | hc := List.mem_cons.mp hc
    · exact hf
    · obtain ⟨a, ha, hc⟩ := List.mem_filterMap.mp hc
      cases a <;> cases hc
      exact h _ ha
  · obtain ⟨k, hk, rfl⟩ := List.mem_map.mp hc
    obtain ⟨a, ha, hk⟩ := List.mem_filterMap.mp hk
    cases a <;> cases hk
    exact h _ ha

theorem gives_seesAny (words : List String) : Gives (seesAny words) fun _ => True :=
  gives_looking fun _ _ => gives_pure trivial

theorem gives_unlessSees (h : r.Plain) (words : List String) :
    Gives (unlessSees r words) fun o => ∀ e ∈ o, e.Plain := by
  refine gives_seq (gives_seesAny words) fun _ => gives_ite ?_ ?_
  · exact gives_pure fun e he => by cases he
  · exact gives_bind h.expression fun e he => gives_pure fun x hx => Option.some.inj hx ▸ he

theorem gives_sliceAfter (h : r.Plain) (line : Nat) {lower : Option Expr}
    (hl : ∀ e ∈ lower, e.Plain) : Gives (sliceAfter r line lower) Expr.Plain := by
  have hslice {upper step : Option Expr} (hu : ∀ e ∈ upper, e.Plain) (hs : ∀ e ∈ step, e.Plain) :
      (slice line lower upper step).Plain := by
    refine plain_of_children ?_ rfl
    simp only [children, List.forall_mem_append, Option.mem_toList]
    exact ⟨⟨hl, hu⟩, hs⟩
  refine gives_seq (gives_expect ":") fun _ => gives_bind (gives_unlessSees h _) fun upper hu => ?_
  refine gives_seq (gives_accept ":") fun _ => gives_ite ?_ ?_
  · exact gives_bind (gives_unlessSees h _) fun step hs => gives_pure (hslice hu hs)
  · exact gives_pure (hslice hu fun e he => by cases he)

theorem gives_sliceItem (h : r.Plain) : Gives (sliceItem r) Expr.Plain := by
  refine gives_seq gives_line fun line => gives_seq (gives_accept "*") fun _ => gives_ite ?_ ?_
  · refine gives_bind h.expression fun e he => gives_pure ?_
    exact plain_of_children (List.forall_mem_singleton.mpr he) rfl
  refine gives_seq (gives_sees ":") fun _ => gives_ite ?_ ?_
  · exact gives_sliceAfter h line fun e he => by cases he
  refine gives_seq (gives_nameBefore? ":=") fun _ => ?_
  refine gives_bind (gives_namedExpression h) fun e he => gives_seq (gives_sees ":") fun _ => ?_
  exact gives_ite (gives_sliceAfter h line fun x hx => Option.some.inj hx ▸ he) (gives_pure he)

theorem gives_slices (h : r.Plain) : Gives (slices r) Expr.Plain := by
  refine gives_seq gives_line fun line => ?_
  refine gives_bind (gives_commaList _ (gives_sliceItem h)) fun items hitems => ?_
  refine gives_seq (gives_expect "]") fun _ => ?_
  obtain ⟨items, trailing⟩ := items
  dsimp only
  split
  · have he := hitems _ List.mem_cons_self
    refine gives_pure ?_
    split
    · exact plain_of_children (List.forall_mem_singleton.mpr he) rfl
    · exact he
  · exact gives_pure (plain_of_children hitems rfl)

theorem gives_trailer (h : r.Plain) (line : Nat) {e : Expr} (he : e.Plain) :
    Gives (trailer r line e) fun o => ∀ x ∈ o, x.Plain := by
  refine gives_seq gives_line fun here => gives_seq (gives_accept ".") fun _ => gives_ite ?_ ?_
  · refine gives_seq gives_name fun _ => gives_pure fun x hx => Option.some.inj hx ▸ ?_
    exact plain_of_children (List.forall_mem_singleton.mpr he) rfl
  refine gives_seq (gives_accept "(") fun _ => gives_ite ?_ ?_
  · refine gives_bind (gives_arguments h _) fun as has => gives_pure fun x hx => ?_
    exact Option.some.inj hx ▸ plain_makeCall line he has
  refine gives_seq (gives_accept "[") fun _ => gives_ite ?_ ?_
  · refine gives_bind (gives_slices h) fun i hi => gives_pure fun x hx => Option.some.inj hx ▸ ?_
    exact plain_of_children (by simp [children, he, hi]) rfl
  · exact gives_pure fun x hx => by cases hx

theorem gives_primary (h : r.Plain) : Gives (primary r) Expr.Plain :=
  gives_seq gives_line fun line => gives_bind (gives_atom h) fun _ he =>
    gives_chain _ (fun _ ha => gives_trailer h line ha) he

theorem gives_awaitPrimary (h : r.Plain) : Gives (awaitPrimary r) Expr.Plain := by
  refine gives_seq gives_line fun line => gives_seq (gives_accept "await") fun _ =>
    gives_ite ?_ (gives_primary h)
  refine gives_bind (gives_primary h) fun e he => gives_pure ?_
  exact plain_of_children (List.forall_mem_singleton.mpr he) rfl

theorem gives_power (h : r.Plain) : Gives (power r) Expr.Plain := by
  refine gives_seq gives_line fun line => gives_bind (gives_awaitPrimary h) fun base hb => ?_
  refine gives_seq (gives_accept "**") fun _ => gives_ite ?_ (gives_pure hb)
  exact gives_bind h.factor fun e he => gives_pure (plain_of_children (by simp [children, hb, he]) rfl)

theorem gives_operator {γ : Type} (words : List (String × γ)) : Gives (oneOf words) fun _ => True :=
  (gives_oneOf (R := fun _ => True) fun _ _ => trivial).mono fun _ _ => trivial

theorem gives_factor (h : r.Plain) : Gives (factor r) Expr.Plain := by
  refine gives_seq gives_line fun line => gives_seq (gives_operator _) fun o => ?_
  cases o with
  | none => exact gives_power h
  | some op =>
    refine gives_bind h.factor fun e he => gives_pure ?_
    exact plain_of_children (List.forall_mem_singleton.mpr he) rfl

theorem gives_leftAssociative (operators : List (String × BinaryOperator)) {operand : Parser Expr}
    (h : Gives operand Expr.Plain) : Gives (leftAssociative r operators operand) Expr.Plain := by
  refine gives_seq gives_line fun line => gives_bind h fun first hf => gives_chain _ (fun l hl => ?_) hf
  refine gives_seq (gives_operator operators) fun o => ?_
  cases o with
  | none => exact gives_pure fun x hx => by cases hx
  | some op =>
    refine gives_bind h fun e he => gives_pure fun x hx => Option.some.inj hx ▸ ?_
    exact plain_of_children (by simp [children, hl, he]) rfl

theorem gives_bitwiseOr (h : r.Plain) : Gives (bitwiseOr r) Expr.Plain :=
  gives_leftAssociative _ (gives_leftAssociative _ (gives_leftAssociative _ (gives_leftAssociative _
    (gives_leftAssociative _ (gives_leftAssociative _ (gives_factor h))))))

theorem gives_comparison? : Gives comparison? fun _ => True := by
  refine gives_seq (gives_operator _) fun o => ?_
  cases o with
  | some c => exact gives_pure trivial
  | none =>
    refine gives_seq (gives_sees "not") fun _ => gives_ite ?_ ?_
    · refine gives_seq (gives_seesNext "in") fun _ => gives_ite ?_ (gives_pure trivial)
      exact gives_seq gives_skip fun _ => gives_seq gives_skip fun _ => gives_pure trivial
    · refine gives_seq (gives_accept "is") fun _ => gives_ite ?_ (gives_pure trivial)
      exact gives_seq (gives_accept "not") fun _ => gives_pure trivial

theorem gives_comparison (h : r.Plain) : Gives (comparison r) Expr.Plain := by
  refine gives_seq gives_line fun line => gives_bind (gives_bitwiseOr h) fun left hl => ?_
  refine gives_bind (gives_many (Q := fun c : Comparand Expr => c.value.Plain) _ ?_) fun rest hr =>
    gives_pure ?_
  · refine gives_seq gives_comparison? fun o => ?_
    cases o with
    | some op => exact gives_bind (gives_bitwiseOr h) fun e he => gives_pure he
    | none => exact gives_failure
  · split
    · exact hl
    · exact plain_of_children (List.forall_mem_cons.mpr ⟨hl, List.forall_mem_map.mpr hr⟩) rfl

theorem gives_inversion (h : r.Plain) : Gives (inversion r) Expr.Plain := by
  refine gives_seq gives_line fun line => gives_seq (gives_accept "not") fun _ =>
    gives_ite ?_ (gives_comparison h)
  refine gives_bind h.inversion fun e he => gives_pure ?_
  exact plain_of_children (List.forall_mem_singleton.mpr he) rfl

theorem gives_junction (word : String) (operator : Junction) {operand : Parser Expr}
    (h : Gives operand Expr.Plain) : Gives (junction r word operator operand) Expr.Plain := by
  refine gives_seq gives_line fun line => gives_bind h fun first hf => ?_
  refine gives_bind (gives_many _ (gives_seq (gives_expect word) fun _ => h)) fun rest hr =>
    gives_pure ?_
  split
  · exact hf
  · exact plain_of_children (List.forall_mem_cons.mpr ⟨hf, hr⟩) rfl

theorem gives_disjunction (h : r.Plain) : Gives (disjunction r) Expr.Plain :=
  gives_junction _ _ (gives_junction _ _ (gives_inversion h))

structure PlainParameter (p : Parameter Expr) : Prop where
  typeHint : ∀ e ∈ p.typeHint, e.Plain
  default : ∀ e ∈ p.default, e.Plain

structure PlainParameters (ps : Parameters Expr) : Prop where
  positionalOnly : ∀ p ∈ ps.positionalOnly, PlainParameter p
  positional : ∀ p ∈ ps.positional, PlainParameter p
  rest : ∀ p ∈ ps.rest, PlainParameter p
  keywordOnly : ∀ p ∈ ps.keywordOnly, PlainParameter p
  keywordRest : ∀ p ∈ ps.keywordRest, PlainParameter p

theorem PlainParameters.parts {ps : Parameters Expr} (h : PlainParameters ps) :
    ∀ e ∈ ps.parts, e.Plain := by
  have hhints {qs : List (Parameter Expr)} (hq : ∀ p ∈ qs, PlainParameter p) :
      ∀ e ∈ Parameter.typeHints qs, e.Plain := by
    intro e he
    obtain ⟨p, hp, he⟩ := List.mem_filterMap.mp he
    exact (hq p hp).typeHint e he
  have hdefaults {qs : List (Parameter Expr)} (hq : ∀ p ∈ qs, PlainParameter p) :
      ∀ e ∈ Parameter.defaults qs, e.Plain := by
    intro e he
    obtain ⟨p, hp, he⟩ := List.mem_filterMap.mp he
    exact (hq p hp).default e he
  have hoption {o : Option (Parameter Expr)} (ho : ∀ p ∈ o, PlainParameter p) :
      ∀ p ∈ o.toList, PlainParameter p :=
    fun p hp => ho p (Option.mem_toList.mp hp)
  simp only [Parameters.parts, List.forall_mem_append]
  exact ⟨⟨⟨⟨⟨⟨⟨hhints h.positionalOnly, hhints h.positional⟩, hhints (hoption h.rest)⟩,
    hhints h.keywordOnly⟩, hdefaults h.keywordOnly⟩, hhints (hoption h.keywordRest)⟩,
    hdefaults h.positionalOnly⟩, hdefaults h.positional⟩

theorem plainParameters_empty : PlainParameters {} :=
  ⟨List.forall_mem_nil _, List.forall_mem_nil _, fun p hp => (by cases hp), List.forall_mem_nil _,
    fun p hp => (by cases hp)⟩

theorem gives_parameter (h : r.Plain) (annotated star : Bool) :
    Gives (parameter r annotated star) PlainParameter := by
  have hbare (name : String) : PlainParameter { name } :=
    ⟨fun e he => (by cases he), fun e he => (by cases he)⟩
  have hhint (name : String) {e : Expr} (he : e.Plain) :
      PlainParameter { name, typeHint := some e } :=
    ⟨fun x hx => Option.some.inj hx ▸ he, fun e he => (by cases he)⟩
  refine gives_seq gives_name fun name => gives_ite ?_ (gives_pure (hbare name))
  refine gives_seq (gives_accept ":") fun _ => gives_ite (gives_ite ?_ ?_) (gives_pure (hbare name))
  · exact gives_bind (gives_starExpression h) fun e he => gives_pure (hhint name he)
  · exact gives_bind h.expression fun e he => gives_pure (hhint name he)

theorem gives_default? (h : r.Plain) : Gives (default? r) fun o => ∀ e ∈ o, e.Plain := by
  refine gives_seq (gives_accept "=") fun _ => gives_ite ?_ ?_
  · exact gives_bind h.expression fun e he => gives_pure fun x hx => Option.some.inj hx ▸ he
  · exact gives_pure fun x hx => by cases hx

theorem ParameterState.plain_add {s t : ParameterState} {p : Parameter Expr} (h : s.add p = some t)
    (hs : PlainParameters s.parameters) (hp : PlainParameter p) : PlainParameters t.parameters := by
  have happend {qs : List (Parameter Expr)} (hq : ∀ p ∈ qs, PlainParameter p) :
      ∀ q ∈ qs ++ [p], PlainParameter q :=
    List.forall_mem_append.mpr ⟨hq, List.forall_mem_singleton.mpr hp⟩
  unfold ParameterState.add at h
  dsimp only at h
  split at h
  · cases h
    exact { hs with keywordOnly := happend hs.keywordOnly }
  · split at h <;> cases h
    exact { hs with positional := happend hs.positional }

theorem ParameterState.plain_slash {s t : ParameterState} (h : s.slash = some t)
    (hs : PlainParameters s.parameters) : PlainParameters t.parameters := by
  unfold ParameterState.slash at h
  dsimp only at h
  split at h <;> cases h
  exact { hs with positionalOnly := hs.positional, positional := List.forall_mem_nil _ }

theorem gives_parametersFrom (h : r.Plain) (annotated : Bool) (stop : String) (bound : Nat)
    {s : ParameterState} (hs : PlainParameters s.parameters) :
    Gives (parametersFrom r annotated stop bound s) PlainParameters := by
  induction bound generalizing s with
  | zero => exact gives_failure
  | succ bound ih =>
    have hnext {s : ParameterState} (hs : PlainParameters s.parameters) : Gives (do
        if ← accept "," then parametersFrom r annotated stop bound s
        else if ← sees stop then return s.parameters
        else failure) PlainParameters := by
      refine gives_seq (gives_accept ",") fun _ => gives_ite (ih hs) ?_
      exact gives_seq (gives_sees stop) fun _ => gives_ite (gives_pure hs) gives_failure
    refine gives_seq (gives_sees stop) fun _ => gives_ite (gives_pure hs) ?_
    refine gives_seq (gives_accept "/") fun _ => gives_ite ?_ ?_
    · split
      · next hslash => exact hnext (ParameterState.plain_slash hslash hs)
      · exact gives_failure
    refine gives_seq (gives_accept "**") fun _ => gives_ite ?_ ?_
    · refine gives_bind (gives_parameter h annotated false) fun p hp => ?_
      refine gives_seq (gives_accept ",") fun _ => gives_seq (gives_sees stop) fun _ => ?_
      refine gives_ite (gives_pure ?_) gives_failure
      exact { hs with keywordRest := fun q hq => Option.some.inj hq ▸ hp }
    refine gives_seq (gives_accept "*") fun _ => gives_ite (gives_unless ?_) ?_
    · refine gives_seq (gives_sees ",") fun _ => gives_ite (gives_looking fun ts _ => ?_) ?_
      · split
        · exact hnext hs
        · exact gives_failure
      · refine gives_bind (gives_parameter h annotated true) fun p hp => hnext ?_
        exact { hs with rest := fun q hq => Option.some.inj hq ▸ hp }
    · refine gives_bind (gives_parameter h annotated false) fun p hp => ?_
      refine gives_bind (gives_default? h) fun o ho => ?_
      split
      · next hadd => exact hnext (ParameterState.plain_add hadd hs ⟨hp.typeHint, ho⟩)
      · exact gives_failure

theorem gives_parameters (h : r.Plain) (annotated : Bool) (stop : String) :
    Gives (parameters r annotated stop) PlainParameters :=
  gives_parametersFrom h annotated stop _ plainParameters_empty

theorem gives_lambda (h : r.Plain) : Gives (lambda r) Expr.Plain := by
  refine gives_seq gives_line fun line => gives_seq (gives_expect "lambda") fun _ => ?_
  refine gives_bind (gives_parameters h false ":") fun ps hps => gives_seq (gives_expect ":") fun _ => ?_
  refine gives_bind h.expression fun e he => gives_pure ?_
  exact plain_of_children (List.forall_mem_append.mpr ⟨hps.parts, List.forall_mem_singleton.mpr he⟩) rfl

theorem gives_expression (h : r.Plain) : Gives (expression r) Expr.Plain := by
  refine gives_seq (gives_sees "lambda") fun _ => gives_ite (gives_lambda h) ?_
  refine gives_seq gives_line fun line => gives_bind (gives_disjunction h) fun body hb => ?_
  refine gives_bind (gives_attempt (Q := fun c : Expr × Expr => c.1.Plain ∧ c.2.Plain) ?_)
    fun o ho => ?_
  · refine gives_seq (gives_expect "if") fun _ => gives_bind (gives_disjunction h) fun test ht => ?_
    refine gives_seq (gives_expect "else") fun _ => ?_
    exact gives_bind h.expression fun e he => gives_pure ⟨ht, he⟩
  · cases o with
    | none => exact gives_pure hb
    | some c =>
      obtain ⟨ht, he⟩ := ho c rfl
      exact gives_pure (plain_of_children (by simp [children, ht, hb, he]) rfl)

/-- By induction on the depth of the nesting. -/
theorem plain_rules (bound depth : Nat) : (rules bound depth).Plain := by
  induction depth with
  | zero => exact ⟨gives_failure, gives_failure, gives_failure, gives_failure, gives_failure,
      gives_failure⟩
  | succ depth ih => exact ⟨gives_atom ih, gives_factor ih, gives_inversion ih, gives_bitwiseOr ih,
      gives_disjunction ih, gives_expression ih⟩

end Grammar

end CallTime.Source

import CallTime.Proofs.Defaults
import CallTime.Proofs.Drafts
import CallTime.Proofs.Faults

/-!
What lowering gives, and how it fails.

Main statement: a source is refused only for a reason, and otherwise the drafts of its functions fit:
references to parameters have their place, literals are constants of the module or negated ones, and
calls that resolve have an argument for each parameter.
-/

namespace CallTime

namespace Draft

def isCall : Draft → Bool
  | .call _ _ _ _ => true
  | _ => false

/-- Every parameter of the function gets an argument, and what is left over are calls. -/
def Binds (s : Source.Signature) (arguments : List Draft) : Prop :=
  s.parameters.length ≤ arguments.length ∧
    ∀ d ∈ arguments.drop s.parameters.length, d.isCall = true

/-- What a function with these parameters is made of: no function and nothing shared, a reference to a
parameter has its name and place, a literal is a constant of the module or a negated one, and a call
that resolves binds the parameters of what it calls. -/
inductive Fits (signatures : OrderedMap String Source.Signature) (parameters : List String) :
    Draft → Prop
  | block (line : Option Nat) {statements : List Draft}
    (h : ∀ d ∈ statements, Fits signatures parameters d) :
    Fits signatures parameters (.block line statements)
  | unknown (line : Option Nat) (name : String) :
    Fits signatures parameters (.reference line name none)
  | parameter (line : Option Nat) {name : String} {i : Nat} (h : parameters[i]? = some name) :
    Fits signatures parameters (.reference line name (some i))
  | literal (line : Option Nat) {v : Value} (place : Option Place) (h : Source.Spelled signatures v) :
    Fits signatures parameters (.literal line v place)
  | binary (line : Option Nat) (operator : String) {left right : Option Draft}
    (hl : ∀ d ∈ left, Fits signatures parameters d) (hr : ∀ d ∈ right, Fits signatures parameters d) :
    Fits signatures parameters (.binary line operator left right)
  | ret (line : Option Nat) {value : Option Draft} (h : ∀ d ∈ value, Fits signatures parameters d) :
    Fits signatures parameters (.ret line value)
  | branch (line : Option Nat) {condition thenBranch elseBranch : Option Draft}
    (hc : ∀ d ∈ condition, Fits signatures parameters d)
    (ht : ∀ d ∈ thenBranch, Fits signatures parameters d)
    (he : ∀ d ∈ elseBranch, Fits signatures parameters d) :
    Fits signatures parameters (.branch line condition thenBranch elseBranch)
  | call (line : Option Nat) (name : Option String) {arguments : List Draft} {target : Option String}
    (h : ∀ d ∈ arguments, Fits signatures parameters d)
    (ht : ∀ key ∈ target, ∃ s, signatures.get? key = some s ∧ Binds s arguments) :
    Fits signatures parameters (.call line name arguments target)

variable {signatures : OrderedMap String Source.Signature} {parameters : List String}

theorem Fits.of_nil {d : Draft} (h : d.Fits signatures []) : d.Fits signatures parameters := by
  induction h with
  | block line _ ih => exact .block line ih
  | unknown line name => exact .unknown line name
  | parameter line h => cases h
  | literal line place h => exact .literal line place h
  | binary line operator _ _ ihl ihr => exact .binary line operator ihl ihr
  | ret line _ ih => exact .ret line ih
  | branch line _ _ _ ihc iht ihe => exact .branch line ihc iht ihe
  | call line name _ ht ih => exact .call line name ih ht

end Draft

namespace Source

open Draft (Fits)

namespace Expr

variable {E : Fault → Prop}

theorem fails_constantText (plain : Bool) (v : Value) :
    Fails (· = .wrongValue) (constantText plain v) := by
  have hliteral := v.fails_literal
  unfold constantText
  split
  · exact fails_ok _
  · exact fails_bind hliteral fun _ => fails_pure _
  · exact fails_bind hliteral fun _ => fails_pure _
  · exact fails_ite (fails_ok _) hliteral
  · exact hliteral

theorem fails_parameterText {text : Expr → Except Fault String} (h : ∀ e, Fails E (text e))
    (p : Parameter Expr) : Fails E (parameterText text p) := by
  unfold parameterText
  cases p.typeHint <;> cases p.default <;> simp [fails_bind_iff, h]

theorem fails_parametersText {text : Expr → Except Fault String} (h : ∀ e, Fails E (text e))
    (ps : Parameters Expr) : Fails E (parametersText text ps) := by
  unfold parametersText
  cases ps.rest <;> cases ps.keywordRest <;>
    simp [fails_bind_iff, fails_mapM, fails_parameterText h]

theorem fails_fieldAt {inner : Expr → Except Fault String} (h : ∀ e, Fails (· = .wrongValue) (inner e))
    (fuel : Nat) (e : Expr) : Fails (· = .wrongValue) (fieldAt inner fuel e) := by
  induction fuel generalizing e with
  | zero =>
    cases e with
    | constant _ value => cases value <;> exact fails_ok _
    | _ => exact fails_ok _
  | succ fuel ih =>
    cases e with
    | constant _ value =>
      cases value with
      | str => exact fails_ok _
      | _ => exact meets_error rfl
    | joined _ values => exact fails_bind (fails_mapM fun v _ => ih v) fun _ => fails_pure _
    | formatted _ value conversion spec =>
      refine fails_bind (h value) fun text => ?_
      simp only
      split
      · exact meets_error rfl
      · cases spec <;> simp [ih]
    | _ => exact meets_error rfl

theorem fails_textAt (fuel : Nat) (plain : Bool) (precedence : Nat) (e : Expr) :
    Fails (· = .wrongValue) (textAt fuel plain precedence e) := by
  induction fuel generalizing plain precedence e with
  | zero => exact fails_ok _
  | succ fuel ih =>
    have hfield (v : Expr) : Fails (· = .wrongValue)
        (fieldAt (textAt fuel true (Precedence.test + 1)) fuel v) :=
      fails_fieldAt (fun e => ih true (Precedence.test + 1) e) fuel v
    unfold textAt
    cases e with
    | lambda _ parameters body =>
      exact fails_bind (fails_parametersText (fun _ => ih ..) _) fun _ =>
        fails_bind (ih ..) fun _ => fails_pure _
    | dict _ items =>
      refine fails_bind (fails_mapM fun i _ => ?_) fun _ => fails_pure _
      cases i.key <;> simp [fails_bind_iff, ih]
    | yield _ value => cases value <;> simp [ih]
    | joined _ values =>
      cases plain <;> simp [fails_mapM, hfield]
    | constant _ value _ => exact fails_bind (fails_constantText _ value) fun _ => fails_pure _
    | subscript _ value index =>
      refine fails_bind (ih ..) fun _ => ?_
      simp only
      split <;> simp [fails_bind_iff, fails_mapM, ih]
    | slice _ lower upper step =>
      cases lower <;> cases upper <;> cases step <;> simp [fails_bind_iff, ih]
    | _ => simp [fails_bind_iff, fails_mapM, fails_mapIdxM, ih, hfield]

theorem fails_text (e : Expr) : Fails (· = .wrongValue) e.text := fails_textAt ..

end Expr

variable {signatures : OrderedMap String Signature} {parameters : List String}

inductive Unlowered (signatures : OrderedMap String Signature) : Fault → Prop
  /-- An expression cannot be printed. -/
  | unprintable {e : Expr} (hm : Mentions signatures e) (ht : e.text = .error .wrongValue) :
    Unlowered signatures .wrongValue
  | endless (h : Circular signatures) : Unlowered signatures .endless

theorem fits_foldDrafts (line : Nat) (operator : String) {ds : List (Option Draft)}
    (h : ∀ o ∈ ds, ∀ d ∈ o, Fits signatures parameters d) :
    ∀ d ∈ foldDrafts line operator ds, Fits signatures parameters d := by
  cases ds with
  | nil => exact fun d hd => by cases hd
  | cons o ds =>
    obtain ⟨ho, hds⟩ := List.forall_mem_cons.mp h
    rw [foldDrafts]
    clear h
    induction ds generalizing o with
    | nil => exact ho
    | cons r ds ih =>
      obtain ⟨hr, hds⟩ := List.forall_mem_cons.mp hds
      refine ih _ (fun d hd => ?_) hds
      cases hd
      exact .binary _ _ ho hr

theorem fits_gather (line : Nat) {ds : List Draft} (h : ∀ d ∈ ds, Fits signatures parameters d) :
    ∀ d ∈ gather line ds, Fits signatures parameters d := by
  intro d hd
  match ds, hd with
  | [x], hd =>
    cases hd
    exact h _ List.mem_cons_self
  | x :: y :: ds, hd =>
    cases hd
    exact .block _ h

theorem fits_parameterIndex? (scope : Scope) (line : Nat) (name : String) :
    Fits signatures scope.parameters (.reference (some line) name (scope.parameterIndex? name)) := by
  unfold Scope.parameterIndex?
  split
  · exact .unknown _ _
  · cases h : scope.parameters.findIdx? (· = name) with
    | none => exact .unknown _ _
    | some i =>
      obtain ⟨hi, hn, -⟩ := List.findIdx?_eq_some_iff_getElem.mp h
      refine .parameter _ ?_
      rw [List.getElem?_eq_getElem hi, of_decide_eq_true hn]

theorem get?_of_targetKey? {scope : Scope} {e : Expr} {key : String}
    (h : targetKey? signatures scope e = some key) : ∃ s, signatures.get? key = some s := by
  refine OrderedMap.get?_of_contains ?_
  unfold targetKey? at h
  split at h
  · split at h
    · next hc => exact Option.some.inj h ▸ hc
    · cases h
  · split at h
    · simp only at h
      split at h
      · next hc => exact Option.some.inj h ▸ (Bool.and_eq_true_iff.mp hc).2
      · cases h
    · cases h
  · cases h

theorem targetKey?_eq_none {scope : Scope} {e : Expr}
    (h : (targetKey? signatures scope e).bind signatures.get? = none) :
    targetKey? signatures scope e = none := by
  cases hk : targetKey? signatures scope e with
  | none => rfl
  | some k =>
    obtain ⟨s, hs⟩ := get?_of_targetKey? hk
    rw [hk, Option.bind_some, hs] at h
    cases h

theorem binds_append {s : Signature} {bound spare : List Draft}
    (hb : bound.length = s.parameters.length) (hs : ∀ d ∈ spare, d.isCall = true) :
    Draft.Binds s (bound ++ spare) := by
  refine ⟨?_, fun d hd => ?_⟩
  · rw [← hb, List.length_append]
    exact Nat.le_add_right _ _
  · rw [← hb, List.drop_left] at hd
    exact hs d hd

theorem fails_text_of_mentions {e : Expr} (h : Mentions signatures e) :
    Fails (Unlowered signatures) e.text := by
  have hf := Expr.fails_text e
  cases ht : e.text with
  | ok text => trivial
  | error fault =>
    rw [ht] at hf
    obtain rfl : fault = .wrongValue := hf
    exact .unprintable h ht

theorem Ready.spare {level : Nat} {scope : Scope} {s : CallSite Expr}
    (h : Ready signatures level scope (.call s)) (signature : Signature) :
    ∀ c ∈ (Binding.make signature s.passed s.named).spare.flatMap spareCalls,
      Ready signatures level scope (.call c.1) := by
  intro c hc
  obtain ⟨e, he, hce⟩ := List.mem_flatMap.mp hc
  exact h.of_holds (((CallSite.make_from signature s).2 e he).trans (Expr.holds_spareCalls hce))

theorem fits_resolved {parameters : List String} {signature : Signature} {key : String}
    (hk : signatures.get? key = some signature) (s : CallSite Expr) {bound spare : List Draft}
    (hlength : bound.length = (Binding.make signature s.passed s.named).slots.length)
    (hbound : ∀ d ∈ bound, Fits signatures parameters d)
    (hspare : ∀ d ∈ spare, Fits signatures parameters d ∧ d.isCall = true) :
    Fits signatures parameters
      (.call (some s.line) (some (calleeText s.function)) (bound ++ spare) (some key)) := by
  rw [Binding.length_slots] at hlength
  refine .call _ _ (List.forall_mem_append.mpr ⟨hbound, fun d hd => (hspare d hd).1⟩) fun k hk' => ?_
  cases hk'
  exact ⟨signature, hk, binds_append hlength fun d hd => (hspare d hd).2⟩

theorem lowers_resolved {level : Nat} {scope : Scope} {s : CallSite Expr} {signature : Signature}
    (hk : (targetKey? signatures scope s.function).bind signatures.get? = some signature)
    (h : Ready signatures level scope (.call s))
    (ihe : ∀ e : { c : Expr // sizeOf c < sizeOf s }, Ready signatures level scope e.1 →
      Meets (Unlowered signatures) (lowerArgument signatures level scope e.1)
        (Fits signatures scope.parameters))
    (ihd : ∀ name l e, level = l + 1 → signature.defaults.get? name = some e →
      Ready signatures l {} e →
      Meets (Unlowered signatures) (lowerArgument signatures l {} e) (Fits signatures []))
    (ihc : ∀ c : { c : CallSite Expr // sizeOf c < sizeOf s }, Ready signatures level scope (.call c.1) →
      Meets (Unlowered signatures) (lowerCall signatures level scope c.1)
        fun d => Fits signatures scope.parameters d ∧ d.isCall = true) :
    Meets (Unlowered signatures) (lowerCall signatures level scope s)
      fun d => Fits signatures scope.parameters d ∧ d.isCall = true := by
  obtain ⟨k, hkey, hs⟩ := Option.bind_eq_some_iff.mp hk
  have hslots := (CallSite.make_from signature s).1
  rw [lowerCall]
  simp only [hkey, Option.bind_some, hs]
  refine meets_bind (meets_mapM (R := Fits signatures scope.parameters) fun slot hslot => ?_)
    fun bound hbound => ?_
  · cases slot with
    | value e => exact ihe e (h.of_holds (hslots _ hslot))
    | unknown name => exact meets_pure (.unknown _ _)
    | default name =>
      have hputs : s.Puts signatures scope (k, name) := ⟨signature, hkey, hs, hslot⟩
      obtain ⟨e, he⟩ := OrderedMap.get?_of_contains (hslots _ hslot)
      cases level with
      | zero => exact meets_error (.endless (h.circular hputs))
      | succ level =>
        -- The default value is lowered outside of the function, so it refers to no parameter.
        simp only [he]
        exact (ihd name level e rfl he (h.default hputs hs he)).mono fun d hd => hd.of_nil
  · refine meets_bind (meets_mapM fun c hc => ihc c (h.spare signature c hc)) fun spare hspare => ?_
    exact meets_pure ⟨fits_resolved hs s hbound.1 hbound.2 hspare.2, rfl⟩

/-- Where the levels are enough, what is lowered fits into the function around it, and of a call there
is a call. -/
theorem lowers (signatures : OrderedMap String Signature) :
    (∀ level scope e, Ready signatures level scope e →
      Meets (Unlowered signatures) (lowerExpr signatures level scope e)
        fun o => ∀ d ∈ o, Fits signatures scope.parameters d) ∧
    (∀ level scope e, Ready signatures level scope e →
      Meets (Unlowered signatures) (lowerNested signatures level scope e)
        fun o => ∀ d ∈ o, Fits signatures scope.parameters d) ∧
    (∀ level scope s, Ready signatures level scope (.call s) →
      Meets (Unlowered signatures) (lowerCall signatures level scope s)
        fun d => Fits signatures scope.parameters d ∧ d.isCall = true) ∧
    ∀ level scope e, Ready signatures level scope e →
      Meets (Unlowered signatures) (lowerArgument signatures level scope e)
        fun d => Fits signatures scope.parameters d := by
  have hone {scope : Scope} {d : Draft} (hd : Fits signatures scope.parameters d) :
      ∀ x ∈ some d, Fits signatures scope.parameters x := fun x hx => Option.some.inj hx ▸ hd
  refine lowerExpr.mutual_induct_unfolding signatures
    (fun level scope e r => Ready signatures level scope e →
      Meets (Unlowered signatures) r fun o => ∀ d ∈ o, Fits signatures scope.parameters d)
    (fun level scope e r => Ready signatures level scope e →
      Meets (Unlowered signatures) r fun o => ∀ d ∈ o, Fits signatures scope.parameters d)
    (fun level scope s r => Ready signatures level scope (.call s) →
      Meets (Unlowered signatures) r fun d => Fits signatures scope.parameters d ∧ d.isCall = true)
    (fun level scope e r => Ready signatures level scope e →
      Meets (Unlowered signatures) r fun d => Fits signatures scope.parameters d)
    ?constant ?constantName ?name ?call ?compare ?operation ?bitwise ?junction ?not ?negative
    ?noNumber ?minus ?other ?nested ?unresolved ?resolved ?argument
  case constant => exact fun _ scope _ _ _ h => hone (.literal _ _ (.constant h.mentions))
  case constantName =>
    intro _ scope _ _ _ v hv h
    exact hone (.literal _ _ (h.spelled v (OrderedMap.mem_values_of_get? hv)))
  case name => exact fun _ scope line id _ _ _ => hone (fits_parameterIndex? scope line id)
  case call => exact fun _ scope site ih h => meets_bind (ih h) fun d hd => hone hd.1
  case compare =>
    intro level scope line left rest ih h
    refine meets_bind (meets_mapM fun p hp => ?_) fun ds hds => fits_foldDrafts _ _ hds.2
    obtain ⟨l, op, r⟩ := p
    obtain ⟨hl, hr⟩ := Expr.mem_comparisonParts hp
    exact meets_bind (ih l (h.child hl)) fun l' hl' =>
      meets_bind (ih r (h.child hr)) fun r' hr' => hone (.binary _ _ hl' hr')
  case operation =>
    intro level scope line op left right word _ ihl ihr h
    refine meets_bind (ihl (h.child List.mem_cons_self)) fun l hl => ?_
    refine meets_bind (ihr (h.child (List.mem_cons_of_mem left List.mem_cons_self))) fun r hr => ?_
    exact hone (.binary _ _ hl hr)
  case bitwise => exact fun _ _ _ _ _ _ _ ih h => ih h
  case junction =>
    intro level scope line op values ih h
    refine meets_bind (meets_mapM fun v _ => ?_) fun ds hds => fits_foldDrafts _ _ hds.2
    obtain ⟨v, hv⟩ := v
    exact ih v hv (h.child hv)
  case not =>
    intro level scope line operand ih h
    refine meets_bind (ih (h.child List.mem_cons_self)) fun d hd => ?_
    exact hone (.binary _ _ hd fun x hx => by cases hx)
  case negative =>
    intro _ scope _ _ _ _ w hw h
    exact hone (.literal _ _ (.negated (h.child List.mem_cons_self).mentions hw))
  case noNumber => exact fun _ _ _ _ _ _ _ _ x hx => by cases hx
  case minus => exact fun _ _ _ _ _ ih h => ih h
  case other => exact fun _ _ _ _ _ _ _ _ _ _ _ ih h => ih h
  case nested =>
    intro level scope e ih h
    refine meets_bind (meets_mapM fun s _ => ?_) fun ds hds => fits_gather _ hds.2
    obtain ⟨s, hs⟩ := s
    exact (ih s hs (h.of_holds (Expr.holds_innerCalls hs))).mono fun d hd => hd.1
  case unresolved =>
    intro level scope s
    dsimp only
    intro hk ihp ihk h
    simp only [targetKey?_eq_none hk]
    refine meets_bind (meets_mapM fun p hp => ihp p (h.of_holds (CallSite.holds_passed hp)))
      fun ps hps => ?_
    refine meets_bind (meets_mapM fun k hk => ihk k (h.of_holds (CallSite.holds_named hk)))
      fun ks hks => ?_
    refine meets_pure ⟨.call _ _ (fun d hd => ?_) (fun key h => by cases h), rfl⟩
    exact (List.mem_append.mp hd).elim (hps.2 d) (hks.2 d)
  case resolved =>
    intro level scope s
    dsimp only
    intro signature hk ihe ihd ihc h
    have hcall := lowers_resolved hk h ihe (fun name l e hl he => by
      subst hl
      simpa only [he] using ihd name) ihc
    rw [lowerCall] at hcall
    simpa only [hk] using hcall
  case argument =>
    intro level scope e ih h
    refine meets_bind (ih h) fun o ho => ?_
    cases o with
    | some d => exact meets_pure (ho d rfl)
    | none => exact meets_bind (fails_text_of_mentions h.mentions) fun _ _ => meets_pure (.unknown _ _)

namespace Program

theorem lowers_expr (p : Program) {scope : Scope} (hs : scope.Spelled p.signatures) {e : Expr}
    (h : Mentions p.signatures e) :
    Meets (Unlowered p.signatures) (p.expr scope e)
      fun o => ∀ d ∈ o, Fits p.signatures scope.parameters d :=
  (lowers p.signatures).1 _ scope e (ready_of_mentions h hs)

theorem lowers_nested (p : Program) {scope : Scope} (hs : scope.Spelled p.signatures) (line : Nat)
    {s : Stmt}
    (h : ∀ e ∈ s.innerCalls.map Expr.call, Mentions p.signatures e) :
    Meets (Unlowered p.signatures) (p.nested scope line s)
      fun o => ∀ d ∈ o, Fits p.signatures scope.parameters d := by
  have hcall (c : CallSite Expr) (hc : c ∈ s.innerCalls) :=
    (lowers p.signatures).2.2.1 _ scope c (ready_of_mentions (h _ (List.mem_map_of_mem hc)) hs)
  refine meets_bind (meets_mapM hcall) fun ds hds => ?_
  exact fits_gather line fun d hd => (hds.2 d hd).1

mutual

theorem lowers_statement (p : Program) {scope : Scope} (hs : scope.Spelled p.signatures) (s : Stmt)
    (h : ∀ e ∈ s.lowered, Mentions p.signatures e) :
    Meets (Unlowered p.signatures) (p.statement scope s)
      fun o => ∀ d ∈ o, Fits p.signatures scope.parameters d := by
  have hblock (line : Option Nat) {ds : List Draft}
      (h : ∀ d ∈ ds, Fits p.signatures scope.parameters d) :
      ∀ d ∈ some (Draft.block line ds), Fits p.signatures scope.parameters d :=
    fun d hd => Option.some.inj hd ▸ .block line h
  have hnone : ∀ d ∈ (none : Option Draft), Fits p.signatures scope.parameters d :=
    fun d hd => by cases hd
  have happend {ds es : List Draft} (hd : ∀ d ∈ ds, Fits p.signatures scope.parameters d)
      (he : ∀ d ∈ es, Fits p.signatures scope.parameters d) :
      ∀ d ∈ ds ++ es, Fits p.signatures scope.parameters d :=
    fun d h => (List.mem_append.mp h).elim (hd d) (he d)
  have hhead {o : Option Draft} (h : ∀ d ∈ o, Fits p.signatures scope.parameters d) :
      ∀ d ∈ o.toList, Fits p.signatures scope.parameters d :=
    fun d hd => h d (Option.mem_toList.mp hd)
  cases s with
  | ifElse line test body orelse =>
    simp only [Stmt.lowered, List.cons_append, List.forall_mem_cons, List.forall_mem_append] at h
    refine meets_bind (p.lowers_expr hs h.1) fun c hc => ?_
    refine meets_bind (lowers_statements p hs body h.2.1) fun t ht => ?_
    refine meets_bind (lowers_statements p hs orelse h.2.2) fun e he => ?_
    refine meets_pure fun d hd => Option.some.inj hd ▸ .branch _ hc (hblock none ht) ?_
    split
    · exact hnone
    · exact hblock none he
  | forLoop line target source body orelse
  | whileLoop line test body orelse =>
    simp only [Stmt.lowered, List.cons_append, List.forall_mem_cons, List.forall_mem_append] at h
    refine meets_bind (p.lowers_expr hs h.1) fun c hc => ?_
    refine meets_bind (lowers_statements p hs body h.2.1) fun i hi => ?_
    refine meets_bind (lowers_statements p hs orelse h.2.2) fun a ha => ?_
    exact hblock _ (happend (happend (hhead hc) hi) ha)
  | withBlock line items body =>
    simp only [Stmt.lowered, List.forall_mem_append, List.forall_mem_map] at h
    refine meets_bind (meets_mapM fun i hi => p.lowers_expr hs (h.1 i hi)) fun heads hheads => ?_
    refine meets_bind (lowers_statements p hs body h.2) fun i hi => ?_
    refine hblock _ (happend (fun d hd => ?_) hi)
    obtain ⟨o, ho, hd⟩ := List.mem_filterMap.mp hd
    exact hheads.2 o ho d hd
  | tryBlock line body handlers orelse final =>
    simp only [Stmt.lowered, List.forall_mem_append] at h
    refine meets_bind (lowers_statements p hs body h.1.1) fun i hi => ?_
    refine meets_bind (lowers_statements p hs orelse h.1.2) fun a ha => ?_
    refine meets_bind (lowers_statements p hs final h.2) fun l hl => ?_
    exact hblock _ (happend (happend hi ha) hl)
  | ret line value =>
    have hret (o : Option Draft) (ho : ∀ d ∈ o, Fits p.signatures scope.parameters d) :
        ∀ d ∈ some (Draft.ret (some line) o), Fits p.signatures scope.parameters d :=
      fun d hd => Option.some.inj hd ▸ .ret _ ho
    cases value with
    | none => exact meets_pure (hret none hnone)
    | some e => exact meets_bind (p.lowers_expr hs (h e List.mem_cons_self)) hret
  | expr line value => exact p.lowers_expr hs (h value List.mem_cons_self)
  | assign line targets value => exact p.lowers_expr hs (h value List.mem_cons_self)
  | augment line target operator value => exact p.lowers_expr hs (h value List.mem_cons_self)
  | annotate line target typeHint value _ =>
    cases value with
    | none => exact meets_pure hnone
    | some e => exact p.lowers_expr hs (h e List.mem_cons_self)
  | delete line targets => exact p.lowers_nested hs line h
  | matchCases line subject cases => exact p.lowers_nested hs line h
  | raise line exception cause => exact p.lowers_nested hs line h
  | tryGroup line body handlers orelse final => exact p.lowers_nested hs line h
  | assert line test message => exact p.lowers_nested hs line h
  | _ => exact meets_pure hnone
termination_by structural s

theorem lowers_statements (p : Program) {scope : Scope} (hs : scope.Spelled p.signatures)
    (ss : List Stmt)
    (h : ∀ e ∈ Stmt.loweredList ss, Mentions p.signatures e) :
    Meets (Unlowered p.signatures) (p.statements scope ss)
      fun ds => ∀ d ∈ ds, Fits p.signatures scope.parameters d := by
  cases ss with
  | nil => exact meets_pure (List.forall_mem_nil _)
  | cons s ss =>
    obtain ⟨hfirst, hrest⟩ := List.forall_mem_append.mp h
    refine meets_bind (lowers_statement p hs s hfirst) fun o ho => ?_
    refine meets_bind (lowers_statements p hs ss hrest) fun ds hds => meets_pure fun d hd => ?_
    obtain hd | hd := List.mem_append.mp hd
    · exact ho d (Option.mem_toList.mp hd)
    · exact hds d hd
termination_by structural ss

end

theorem spelled_forget {scope : Scope} (hs : scope.Spelled signatures) (names : List String) :
    (scope.forget names).Spelled signatures := by
  unfold Scope.forget
  obtain ⟨className, parameters, rebound, constants⟩ := scope
  dsimp only
  induction names generalizing constants with
  | nil => exact hs
  | cons name names ih => exact ih _ fun v hv => hs v (OrderedMap.mem_values_erase hv)

theorem mem_lowered_of_constantAssignment {s : Stmt} {id : String} {c : Constant}
    (h : constantAssignment? s = some (id, c)) :
    ∃ line spelling, Expr.constant line c.value spelling ∈ s.lowered := by
  unfold constantAssignment? at h
  split at h <;> cases h
  · exact ⟨_, _, List.mem_cons_self⟩
  · exact ⟨_, _, List.mem_cons_self⟩

theorem lowers_body (p : Program) {scope : Scope} (hs : scope.Spelled p.signatures) {ss : List Stmt}
    (h : ∀ e ∈ Stmt.loweredList ss, Mentions p.signatures e) :
    Meets (Unlowered p.signatures) (p.body scope ss)
      fun ds => ∀ d ∈ ds, Fits p.signatures scope.parameters d := by
  induction ss generalizing scope with
  | nil => exact meets_pure (List.forall_mem_nil _)
  | cons s ss ih =>
    obtain ⟨hfirst, hss⟩ := List.forall_mem_append.mp h
    have hforget := spelled_forget hs s.boundNames
    -- A scope forgets constants and learns them, but its parameters stay.
    have hstatement : Meets (Unlowered p.signatures)
        (p.statement (if isStraight s then scope else scope.forget s.boundNames) s)
        fun o => ∀ d ∈ o, Fits p.signatures scope.parameters d := by
      split
      · exact p.lowers_statement hs s hfirst
      · exact p.lowers_statement hforget s hfirst
    refine meets_bind hstatement fun o ho => ?_
    have hrest : ∀ after : Scope, after.parameters = scope.parameters → after.Spelled p.signatures →
        Meets (Unlowered p.signatures) (do return o.toList ++ (← p.body after ss))
          fun ds => ∀ d ∈ ds, Fits p.signatures scope.parameters d := by
      intro after hafter hspelled
      refine meets_bind (ih hspelled hss) fun ds hds => meets_pure fun d hd => ?_
      obtain hd | hd := List.mem_append.mp hd
      · exact ho d (Option.mem_toList.mp hd)
      · exact hafter ▸ hds d hd
    dsimp only
    cases hc : constantAssignment? s with
    | none => exact hrest _ rfl hforget
    | some assigned =>
      refine hrest _ rfl fun v hv => ?_
      obtain rfl | hv := OrderedMap.mem_values_insert hv
      · obtain ⟨line, spelling, hmem⟩ := mem_lowered_of_constantAssignment hc
        exact .constant (hfirst _ hmem)
      · exact hforget v hv

end Program

def Signature.drafts (s : Signature) : List Draft :=
  s.parameters.mapIdx fun i name => .reference none name (some i)

theorem Signature.fits_drafts (signatures : OrderedMap String Signature) (s : Signature) :
    ∀ d ∈ s.drafts, Fits signatures s.parameters d := by
  intro d hd
  obtain ⟨i, hi, rfl⟩ := List.mem_mapIdx.mp hd
  exact .parameter none (List.getElem?_eq_getElem hi)

inductive Defines (signatures : OrderedMap String Signature) (s : Signature) : Draft → Prop
  | mk (line : Option Nat) (name qualified : String) {body : Draft}
    (h : Fits signatures s.parameters body) :
    Defines signatures s (.function line name qualified s.drafts body (some s.key))

theorem Program.lowers_function (p : Program) (module : String) {s : Signature}
    (hs : s ∈ p.signatures.values) :
    Meets (Unlowered p.signatures) (p.function module s) (Defines p.signatures s) := by
  have hbody : ∀ e ∈ Stmt.loweredList s.body, Mentions p.signatures e :=
    fun e he => ⟨s, hs, e, List.mem_append_left _ he, .refl⟩
  refine meets_bind (p.lowers_body (fun v hv => by cases hv) hbody) fun ds hds => meets_pure ?_
  exact .mk _ _ _ (.block none hds)

theorem lowers_module (module : String) (statements : List Stmt) :
    Meets (Unlowered (Signature.collect statements)) (lowerModule module statements)
      (List.Forall₂ (Defines (Signature.collect statements)) (Signature.collect statements).values) :=
  meets_mapM_forall₂ fun _ hs => Program.lowers_function _ module hs

inductive Refused (source : String) : Fault → Prop
  | null (h : Char.ofNat 0 ∈ source.toList) : Refused source .wrongValue
  | unreadable (h : readModule? source.toList = none) : Refused source .malformed
  | unlowered {statements : List Stmt} {e : Fault} (h : readModule? source.toList = some statements)
    (he : Unlowered (Signature.collect statements) e) : Refused source e

theorem loads (module source : String) :
    Meets (Refused source) (load module source) fun ds => ∃ statements,
      readModule? source.toList = some statements ∧
        List.Forall₂ (Defines (Signature.collect statements)) (Signature.collect statements).values
          ds := by
  simp only [load]
  split
  · next h => exact meets_error (.null (List.contains_iff_mem.mp h))
  · cases h : readModule? source.toList with
    | none => exact meets_error (.unreadable h)
    | some statements =>
      refine ((lowers_module module statements).widen fun _ => .unlowered h).mono fun ds hds => ?_
      exact ⟨statements, rfl, hds⟩

end Source

end CallTime

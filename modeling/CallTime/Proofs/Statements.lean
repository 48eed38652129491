import CallTime.Proofs.Grammar

/-!
The constants of a module.

Main statement: in a module that is read, every constant that a function mentions has a truth value.
-/

namespace CallTime.Source

open CallTime.Source.Expr (plain_of_children plain_constant)

theorem Expr.plain_calls {es : List Expr} (h : ∀ e ∈ es, e.Plain) :
    ∀ c ∈ es.flatMap Expr.outerCalls, (Expr.call c).Plain := by
  intro c hc
  obtain ⟨e, he, hc⟩ := List.mem_flatMap.mp hc
  exact (h e he).call_outerCalls hc

theorem Expr.plain_calls_toList {o : Option Expr} (h : ∀ e ∈ o, e.Plain) :
    ∀ c ∈ o.toList.flatMap Expr.outerCalls, (Expr.call c).Plain :=
  plain_calls fun e he => h e (Option.mem_toList.mp he)

namespace Pattern

def Plain (p : Pattern) : Prop := ∀ c ∈ p.outerCalls, (Expr.call c).Plain

theorem plain_list {ps : List Pattern} (h : ∀ p ∈ ps, p.Plain) :
    ∀ c ∈ outerCallsList ps, (Expr.call c).Plain := by
  induction ps with
  | nil => exact List.forall_mem_nil _
  | cons p ps ih =>
    obtain ⟨hp, hps⟩ := List.forall_mem_cons.mp h
    exact List.forall_mem_append.mpr ⟨hp, ih hps⟩

end Pattern

namespace Grammar

open CallTime.Source.Parser

variable {r : Rules}

theorem gives_captureTarget : Gives captureTarget fun _ => True :=
  gives_seq gives_name fun _ => gives_seq (gives_seesAny _) fun _ => gives_unless (gives_pure trivial)

theorem gives_dotted (least : Nat) : Gives (dotted r least) Expr.Plain := by
  refine gives_seq gives_line fun line => gives_seq gives_name fun id => ?_
  refine gives_seq ((gives_many _ (gives_seq (gives_expect ".") fun _ => gives_name)).mono
    fun _ _ => trivial) fun rest => gives_unless (gives_pure ?_)
  have hfold : ∀ e : Expr, e.Plain → (rest.foldl (Expr.attribute line) e).Plain := by
    induction rest with
    | nil => exact fun e he => he
    | cons name rest ih =>
      exact fun e he => ih _ (plain_of_children (List.forall_mem_singleton.mpr he) rfl)
  exact hfold _ (Expr.plain_name line id .load)

theorem gives_number : Gives number Value.Ordinary := by
  refine gives_looking fun ts hts => ?_
  split
  · obtain ⟨ht, hts⟩ := List.forall_mem_cons.mp hts
    exact gives_seq (gives_set hts) fun _ => gives_pure (ht _ rfl)
  · exact gives_failure

theorem gives_signedNumber : Gives signedNumber Expr.Plain := by
  refine gives_seq gives_line fun line => gives_seq (gives_accept "-") fun negative => ?_
  refine gives_seq gives_line fun here => gives_seq gives_place fun place => ?_
  refine gives_bind gives_number fun v hv => ?_
  have hfirst : (if negative then Expr.unary line .minus (.constant here v { place })
      else .constant here v { place }).Plain := by
    split
    · exact plain_of_children (List.forall_mem_singleton.mpr (plain_constant here hv _)) rfl
    · exact plain_constant here hv _
  refine gives_seq (gives_operator _) fun o => ?_
  cases o with
  | none => exact gives_pure hfirst
  | some op =>
    refine gives_seq gives_line fun here' => gives_seq gives_place fun place' => ?_
    refine gives_bind gives_number fun w hw => ?_
    refine gives_unless (gives_pure (plain_of_children (List.forall_mem_cons.mpr ⟨hfirst, ?_⟩) rfl))
    exact List.forall_mem_singleton.mpr (plain_constant here' hw _)

theorem gives_literalValue (h : r.Plain) : Gives (literalValue r) Expr.Plain := by
  refine gives_looking fun ts _ => ?_
  split
  · exact gives_strings h
  · exact gives_signedNumber

theorem ordinary_namedConstants : ∀ w ∈ namedConstants, w.2.Ordinary := by
  simp only [namedConstants, List.forall_mem_cons, List.not_mem_nil, false_imp_iff, implies_true,
    and_true]
  exact ⟨trivial, trivial, trivial⟩

theorem gives_mappingKey (h : r.Plain) : Gives (mappingKey r) Expr.Plain := by
  refine gives_seq gives_line fun line => gives_seq gives_place fun place => ?_
  refine gives_bind (gives_oneOf ordinary_namedConstants) fun o ho => ?_
  cases o with
  | some v => exact gives_pure (plain_constant line (ho v rfl) _)
  | none =>
    refine gives_bind (gives_attempt (gives_dotted 1)) fun o ho => ?_
    cases o with
    | some e => exact gives_pure (ho e rfl)
    | none => exact gives_literalValue h

variable {pattern : Parser Pattern}

theorem gives_starPattern (hp : Gives pattern Pattern.Plain) :
    Gives (starPattern pattern) fun i => i.1.Plain := by
  refine gives_seq (gives_accept "*") fun _ => gives_ite ?_ ?_
  · refine gives_seq ((gives_attempt gives_captureTarget).mono fun _ _ => trivial) fun o => ?_
    cases o with
    | some id => exact gives_pure (List.forall_mem_nil _)
    | none => exact gives_seq (gives_softKeyword "_") fun _ => gives_pure (List.forall_mem_nil _)
  · exact gives_bind hp fun p hp => gives_pure hp

theorem gives_sequenceItems (hp : Gives pattern Pattern.Plain) (close : String) :
    Gives (sequenceItems r pattern close) Pattern.Plain := by
  refine gives_seq (gives_accept close) fun _ => gives_ite (gives_pure (List.forall_mem_nil _)) ?_
  refine gives_bind (gives_commaList _ (gives_starPattern hp)) fun items hitems => ?_
  obtain ⟨items, trailing⟩ := items
  refine gives_seq (gives_expect close) fun _ => ?_
  dsimp only
  split
  · have hone := hitems _ List.mem_cons_self
    refine gives_ite (gives_unless (gives_pure hone)) (gives_pure ?_)
    exact Pattern.plain_list (List.forall_mem_singleton.mpr hone)
  · exact gives_pure (Pattern.plain_list (List.forall_mem_map.mpr hitems))

def MappingEntry.Plain : MappingEntry → Prop
  | .entry key value => key.Plain ∧ value.Plain
  | .rest _ => True

theorem gives_mappingEntries (h : r.Plain) (hp : Gives pattern Pattern.Plain) :
    Gives (mappingEntries r pattern) Pattern.Plain := by
  refine gives_seq (gives_accept _) fun _ => gives_ite (gives_pure (List.forall_mem_nil _)) ?_
  refine gives_bind (gives_commaList (Q := MappingEntry.Plain) _ ?_) fun items hitems => ?_
  · refine gives_seq (gives_accept "**") fun _ => gives_ite ?_ ?_
    · exact gives_seq gives_captureTarget fun _ => gives_pure trivial
    · refine gives_bind (gives_mappingKey h) fun key hk => gives_seq (gives_expect ":") fun _ => ?_
      exact gives_bind hp fun p hp => gives_pure ⟨hk, hp⟩
  obtain ⟨items, trailing⟩ := items
  refine gives_seq (gives_expect _) fun _ => ?_
  have hentries : ∀ rest : Option String, Pattern.Plain (.mapping
      ((items.filterMap fun | .entry k p => some (k, p) | .rest _ => none).map (·.1))
      ((items.filterMap fun | .entry k p => some (k, p) | .rest _ => none).map (·.2)) rest) := by
    have hall : ∀ e ∈ items.filterMap (fun | .entry k p => some (k, p) | .rest _ => none),
        Expr.Plain e.1 ∧ Pattern.Plain e.2 := by
      intro e he
      obtain ⟨i, hi, he⟩ := List.mem_filterMap.mp he
      cases i <;> cases he
      exact hitems _ hi
    intro rest
    refine List.forall_mem_append.mpr ⟨Expr.plain_calls ?_, Pattern.plain_list ?_⟩
    · exact List.forall_mem_map.mpr fun e he => (hall e he).1
    · exact List.forall_mem_map.mpr fun e he => (hall e he).2
  dsimp only
  split
  · exact gives_pure (hentries _)
  · exact gives_pure (hentries _)
  · exact gives_failure

theorem gives_recordEntries (hp : Gives pattern Pattern.Plain) {class_ : Expr} (hc : class_.Plain) :
    Gives (recordEntries r pattern class_) Pattern.Plain := by
  have hrecord {positional keyword : List Pattern} (names : List String)
      (hp : ∀ p ∈ positional, p.Plain) (hk : ∀ p ∈ keyword, p.Plain) :
      (Pattern.record class_ positional names keyword).Plain := by
    simp only [Pattern.Plain, Pattern.outerCalls, List.forall_mem_append]
    exact ⟨⟨fun c hm => hc.call_outerCalls hm, Pattern.plain_list hp⟩, Pattern.plain_list hk⟩
  refine gives_seq (gives_accept ")") fun _ =>
    gives_ite (gives_pure (hrecord [] (List.forall_mem_nil _) (List.forall_mem_nil _))) ?_
  refine gives_bind (gives_commaList (Q := fun i : Option String × Pattern => i.2.Plain) _ ?_)
    fun items hitems => ?_
  · refine gives_seq (gives_nameBefore? "=") fun o => ?_
    cases o with
    | some id =>
      refine gives_seq gives_skip fun _ => gives_seq gives_skip fun _ => ?_
      exact gives_bind hp fun p hp => gives_pure hp
    | none => exact gives_bind hp fun p hp => gives_pure hp
  obtain ⟨items, trailing⟩ := items
  refine gives_seq (gives_expect ")") fun _ => gives_unless (gives_pure (hrecord _ ?_ ?_))
  · exact List.forall_mem_map.mpr fun i hi => hitems i ((items.takeWhile_sublist _).subset hi)
  · exact List.forall_mem_map.mpr fun i hi => hitems i ((items.dropWhile_sublist _).subset hi)

theorem gives_namePattern (hp : Gives pattern Pattern.Plain) :
    Gives (namePattern r pattern) Pattern.Plain := by
  refine gives_seq ((gives_attempt gives_captureTarget).mono fun _ _ => trivial) fun o => ?_
  cases o with
  | some id => exact gives_pure (List.forall_mem_nil _)
  | none =>
    refine gives_seq gives_name? fun _ => gives_ite ?_ ?_
    · exact gives_seq gives_skip fun _ => gives_pure (List.forall_mem_nil _)
    refine gives_bind (gives_dotted 0) fun e he => ?_
    refine gives_seq (gives_accept "(") fun _ => gives_ite (gives_recordEntries hp he) ?_
    refine gives_seq (gives_sees "=") fun _ => gives_ite gives_failure ?_
    split
    · exact gives_failure
    · exact gives_pure fun c hc => he.call_outerCalls hc

theorem gives_closedPattern (h : r.Plain) (hp : Gives pattern Pattern.Plain) :
    Gives (closedPattern r pattern) Pattern.Plain := by
  refine gives_looking fun ts _ => ?_
  split
  · exact gives_namePattern hp
  · refine gives_seq (gives_operator _) fun o => ?_
    cases o with
    | some v => exact gives_pure (List.forall_mem_nil _)
    | none =>
      refine gives_seq (gives_accept "(") fun _ => gives_ite (gives_sequenceItems hp _) ?_
      refine gives_seq (gives_accept "[") fun _ => gives_ite (gives_sequenceItems hp _) ?_
      refine gives_seq (gives_accept _) fun _ => gives_ite (gives_mappingEntries h hp) ?_
      exact gives_bind (gives_literalValue h) fun e he => gives_pure fun c hc => he.call_outerCalls hc

theorem gives_asPattern (h : r.Plain) (hp : Gives pattern Pattern.Plain) :
    Gives (asPattern r pattern) Pattern.Plain := by
  refine gives_bind (gives_closedPattern h hp) fun first hf => ?_
  refine gives_bind (gives_many _ (gives_seq (gives_expect "|") fun _ => gives_closedPattern h hp))
    fun rest hr => ?_
  have hall : (if rest.isEmpty then first else .alternatives (first :: rest)).Plain := by
    split
    · exact hf
    · exact Pattern.plain_list (List.forall_mem_cons.mpr ⟨hf, hr⟩)
  refine gives_seq (gives_accept "as") fun _ => gives_ite ?_ (gives_pure hall)
  exact gives_seq gives_captureTarget fun _ => gives_pure hall

theorem gives_patternAt (h : r.Plain) (depth : Nat) : Gives (patternAt r depth) Pattern.Plain := by
  induction depth with
  | zero => exact gives_failure
  | succ depth ih => exact gives_asPattern h ih

theorem gives_casePattern (h : r.Plain) : Gives (casePattern r) Pattern.Plain := by
  refine gives_bind (gives_commaList _ (gives_starPattern (gives_patternAt h _))) fun items hitems => ?_
  obtain ⟨items, trailing⟩ := items
  dsimp only
  split
  · exact gives_unless (gives_pure (hitems _ List.mem_cons_self))
  · exact gives_pure (Pattern.plain_list (List.forall_mem_map.mpr hitems))

end Grammar

namespace Signature

def Plain (s : Signature) : Prop := ∀ e ∈ Stmt.loweredList s.body ++ s.defaults.values, e.Plain

end Signature

namespace Stmt

/-- What is lowered of the statement is plain, also where it defines functions or methods. -/
structure Plain (s : Stmt) : Prop where
  lowered : ∀ e ∈ s.lowered, e.Plain
  calls : ∀ c ∈ s.innerCalls, (Expr.call c).Plain
  functions : ∀ f ∈ Signature.ofStatement s, f.Plain
  members : ∀ className, ∀ f ∈ Signature.ofMember className s, f.Plain

def isDefinition : Stmt → Bool
  | .functionDef _ _ _ _ _ | .classDef _ _ _ _ => true
  | _ => false

variable {s : Stmt} {ss : List Stmt}

theorem plain_of_parts (hl : ∀ e ∈ s.lowered, e.Plain) (hc : ∀ c ∈ s.innerCalls, (Expr.call c).Plain)
    (hd : s.isDefinition = false) : s.Plain := by
  refine ⟨hl, hc, ?_, fun className => ?_⟩
  all_goals
    intro f hf
    cases s with
    | functionDef => cases hd
    | classDef => cases hd
    | _ => cases hf

theorem plain_of_calls (hl : s.lowered = s.innerCalls.map .call)
    (hc : ∀ c ∈ s.innerCalls, (Expr.call c).Plain) (hd : s.isDefinition = false) : s.Plain :=
  plain_of_parts (hl ▸ List.forall_mem_map.mpr hc) hc hd

theorem plain_loweredList (h : ∀ s ∈ ss, s.Plain) : ∀ e ∈ loweredList ss, e.Plain := by
  induction ss with
  | nil => exact List.forall_mem_nil _
  | cons s ss ih =>
    obtain ⟨hs, hss⟩ := List.forall_mem_cons.mp h
    exact List.forall_mem_append.mpr ⟨hs.lowered, ih hss⟩

theorem plain_innerCallsList (h : ∀ s ∈ ss, s.Plain) :
    ∀ c ∈ innerCallsList ss, (Expr.call c).Plain := by
  induction ss with
  | nil => exact List.forall_mem_nil _
  | cons s ss ih =>
    obtain ⟨hs, hss⟩ := List.forall_mem_cons.mp h
    exact List.forall_mem_append.mpr ⟨hs.calls, ih hss⟩

theorem plain_innerCallsHandlers {hs : List Handler}
    (h : ∀ k ∈ hs, ∀ c ∈ innerCallsHandler k, (Expr.call c).Plain) :
    ∀ c ∈ innerCallsHandlers hs, (Expr.call c).Plain := by
  induction hs with
  | nil => exact List.forall_mem_nil _
  | cons k hs ih =>
    obtain ⟨hk, hhs⟩ := List.forall_mem_cons.mp h
    exact List.forall_mem_append.mpr ⟨hk, ih hhs⟩

theorem plain_innerCallsCases {cs : List MatchCase}
    (h : ∀ k ∈ cs, ∀ c ∈ innerCallsCase k, (Expr.call c).Plain) :
    ∀ c ∈ innerCallsCases cs, (Expr.call c).Plain := by
  induction cs with
  | nil => exact List.forall_mem_nil _
  | cons k cs ih =>
    obtain ⟨hk, hcs⟩ := List.forall_mem_cons.mp h
    exact List.forall_mem_append.mpr ⟨hk, ih hcs⟩

end Stmt

theorem Signature.plain_make (key name : String) (className : Option String) (line : Nat)
    {ps : Parameters Expr} (hp : Grammar.PlainParameters ps) {body : List Stmt}
    (hb : ∀ s ∈ body, s.Plain) : (make key name className line ps body).Plain := by
  refine List.forall_mem_append.mpr ⟨Stmt.plain_loweredList hb, fun e he => ?_⟩
  obtain ⟨d, hd, rfl⟩ := OrderedMap.mem_values_ofList he
  obtain ⟨p, hmem, hd⟩ := List.mem_filterMap.mp hd
  obtain ⟨e, hdefault, rfl⟩ := Option.map_eq_some_iff.mp hd
  have hplain : Grammar.PlainParameter p := by
    simp only [List.mem_append] at hmem
    obtain (hmem | hmem) | hmem := hmem
    · exact hp.positionalOnly p hmem
    · exact hp.positional p hmem
    · exact hp.keywordOnly p hmem
  exact hplain.default e hdefault

theorem Stmt.plain_functionDef (line : Nat) (name : String) {ps : Parameters Expr}
    (hp : Grammar.PlainParameters ps) {body : List Stmt} (hb : ∀ s ∈ body, s.Plain)
    (header : List Expr) : (Stmt.functionDef line name ps body header).Plain where
  lowered := List.forall_mem_nil _
  calls := List.forall_mem_nil _
  functions := List.forall_mem_singleton.mpr (Signature.plain_make name name none line hp hb)
  members className f hf := by
    cases hf
    exact Signature.plain_make _ name (some className) line hp hb

theorem Stmt.plain_classDef (line : Nat) (name : String) {body : List Stmt}
    (hb : ∀ s ∈ body, s.Plain) (header : List Expr) : (Stmt.classDef line name body header).Plain where
  lowered := List.forall_mem_nil _
  calls := List.forall_mem_nil _
  functions f hf := by
    obtain ⟨s, hs, hf⟩ := List.mem_filterMap.mp hf
    exact (hb s hs).members name f hf
  members className f hf := by cases hf

namespace Grammar

open CallTime.Source.Parser

variable {r : Rules}

theorem gives_assigned (h : r.Plain) : Gives (assigned r) Expr.Plain :=
  gives_seq (gives_sees _) fun _ => gives_ite (gives_yieldExpression h) (gives_starExpressions h)

theorem gives_orFail {α : Type} {Q : α → Prop} {o : Option α} (h : ∀ a, o = some a → Q a) :
    Gives (orFail o) Q := by
  cases o with
  | none => exact gives_failure
  | some a => exact gives_pure (h a rfl)

theorem gives_option {α β : Type} {p : Parser α} {f : Option α → Parser β} {Q : α → Prop}
    {R : β → Prop} {c : Prop} [Decidable c] (hp : Gives p Q)
    (hf : ∀ o, (∀ a ∈ o, Q a) → Gives (f o) R) :
    Gives (if c then do let a ← p; let o ← pure (some a); f o else do let o ← pure none; f o) R := by
  refine gives_ite (gives_bind hp fun a ha => hf (some a) fun b hb => ?_) (hf none fun b hb => ?_)
  · exact Option.some.inj hb ▸ ha
  · cases hb

theorem plain_expr (line : Nat) {e : Expr} (he : e.Plain) : (Stmt.expr line e).Plain :=
  Stmt.plain_of_parts (List.forall_mem_singleton.mpr he) (fun _ hc => he.call_outerCalls hc) rfl

theorem gives_assignments (h : r.Plain) (line : Nat) (bound : Nat) {targets : List Expr}
    (ht : ∀ e ∈ targets, e.Plain) {last : Expr} (hl : last.Plain) :
    Gives (assignments r line bound targets last) Stmt.Plain := by
  induction bound generalizing targets last with
  | zero => exact gives_failure
  | succ bound ih =>
    refine gives_seq (gives_accept "=") fun _ => gives_ite ?_ (gives_pure ?_)
    · refine gives_bind (gives_orFail fun t => Expr.plain_asTarget? hl) fun target htarget => ?_
      refine gives_bind (gives_assigned h) fun e he => ih ?_ he
      exact List.forall_mem_append.mpr ⟨ht, List.forall_mem_singleton.mpr htarget⟩
    · split
      · exact plain_expr line hl
      · refine Stmt.plain_of_parts (List.forall_mem_singleton.mpr hl) ?_ rfl
        exact List.forall_mem_append.mpr ⟨Expr.plain_calls ht, fun c hc => hl.call_outerCalls hc⟩

theorem gives_expressionStatement (h : r.Plain) : Gives (expressionStatement r) Stmt.Plain := by
  refine gives_seq gives_line fun line => gives_seq (gives_sees _) fun _ => ?_
  refine gives_bind (gives_starExpressions h) fun e he => ?_
  refine gives_seq (gives_accept ":") fun _ => gives_ite ?_ ?_
  · refine gives_bind (gives_orFail fun t => Expr.plain_asSingleTarget? he) fun target ht => ?_
    refine gives_bind h.expression fun hint hhint => gives_seq (gives_accept "=") fun _ => ?_
    refine gives_option (gives_assigned h) fun value hv => gives_pure ?_
    refine Stmt.plain_of_parts (fun e he => hv e (Option.mem_toList.mp he)) ?_ rfl
    simp only [Stmt.innerCalls, List.forall_mem_append]
    exact ⟨⟨fun c hc => ht.call_outerCalls hc, fun c hc => hhint.call_outerCalls hc⟩,
      Expr.plain_calls_toList hv⟩
  · refine gives_seq (gives_operator _) fun o => ?_
    cases o with
    | none => exact gives_assignments h line _ (List.forall_mem_nil _) he
    | some op =>
      refine gives_bind (gives_orFail fun t => Expr.plain_asSingleTarget? he) fun target ht => ?_
      refine gives_bind (gives_assigned h) fun value hv => gives_pure ?_
      refine Stmt.plain_of_parts (List.forall_mem_singleton.mpr hv) ?_ rfl
      exact List.forall_mem_append.mpr
        ⟨fun c hc => ht.call_outerCalls hc, fun c hc => hv.call_outerCalls hc⟩

theorem plain_bare {s : Stmt} (hl : s.lowered = []) (hc : s.innerCalls = [])
    (hd : s.isDefinition = false) : s.Plain :=
  Stmt.plain_of_parts (hl ▸ List.forall_mem_nil _) (hc ▸ List.forall_mem_nil _) hd

theorem gives_dottedName (r : Rules) : Gives (dottedName r) fun _ => True := by
  refine gives_seq gives_name fun _ => gives_bind (gives_many _ (Q := fun _ => True) ?_) fun _ _ =>
    gives_pure trivial
  exact gives_seq (gives_expect _) fun _ => gives_name

theorem gives_newName : Gives newName fun _ => True := by
  refine gives_seq (gives_accept "as") fun _ => gives_ite ?_ (gives_pure trivial)
  exact gives_seq gives_name fun _ => gives_pure trivial

theorem gives_importStatement (r : Rules) : Gives (importStatement r) Stmt.Plain := by
  refine gives_seq gives_line fun line => gives_seq (gives_expect _) fun _ => ?_
  refine gives_bind (gives_commaList (Q := fun _ => True) _ ?_) fun _ _ => ?_
  · exact gives_seq (gives_dottedName r) fun _ => gives_seq gives_newName fun _ => gives_pure trivial
  · exact gives_unless (gives_pure (plain_bare rfl rfl rfl))

theorem gives_importFromStatement (r : Rules) : Gives (importFromStatement r) Stmt.Plain := by
  have hbare (line : Nat) (names : List Alias) : (Stmt.importNames line names).Plain :=
    plain_bare rfl rfl rfl
  have hone : Gives (do let id ← name; return Alias.mk id (← newName)) fun _ => True :=
    gives_seq gives_name fun _ => gives_seq gives_newName fun _ => gives_pure trivial
  refine gives_seq gives_line fun line => gives_seq (gives_expect _) fun _ => ?_
  refine gives_bind (gives_many (Q := fun _ => True) _ ?_) fun dots _ => ?_
  · refine gives_seq (gives_operator _) fun o => ?_
    cases o with
    | none => exact gives_failure
    | some _ => exact gives_pure trivial
  refine gives_bind (gives_attempt (gives_dottedName r)) fun module _ => gives_unless ?_
  refine gives_seq (gives_expect _) fun _ => gives_seq (gives_accept "*") fun _ => ?_
  refine gives_ite (gives_pure (hbare line _)) ?_
  refine gives_seq (gives_accept "(") fun _ => gives_ite ?_ ?_
  · refine gives_bind (gives_commaList _ hone) fun names _ => ?_
    exact gives_seq (gives_expect _) fun _ => gives_pure (hbare line _)
  · refine gives_bind (gives_commaList _ hone) fun names _ => ?_
    exact gives_unless (gives_pure (hbare line _))

theorem gives_seesStatementEnd : Gives seesStatementEnd fun _ => True := by
  refine gives_looking fun ts _ => ?_
  split <;> exact gives_pure trivial

theorem gives_deleteStatement (h : r.Plain) : Gives (deleteStatement r) Stmt.Plain := by
  refine gives_seq gives_line fun line => gives_seq (gives_expect _) fun _ => ?_
  refine gives_bind (gives_commaList _ h.bitwiseOr) fun items hitems => ?_
  refine gives_seq gives_seesStatementEnd fun _ => gives_unless ?_
  refine gives_bind (gives_orFail fun ts => Expr.plain_asTargets? hitems) fun ts hts => gives_pure ?_
  exact Stmt.plain_of_calls rfl (Expr.plain_calls hts) rfl

theorem gives_raiseStatement (h : r.Plain) : Gives (raiseStatement r) Stmt.Plain := by
  refine gives_seq gives_line fun line => gives_seq (gives_expect _) fun _ => ?_
  refine gives_seq gives_seesStatementEnd fun _ => gives_ite (gives_pure (plain_bare rfl rfl rfl)) ?_
  refine gives_bind h.expression fun e he => gives_seq (gives_accept "from") fun _ => ?_
  refine gives_option h.expression fun cause hc => gives_pure ?_
  refine Stmt.plain_of_calls rfl (List.forall_mem_append.mpr ⟨?_, Expr.plain_calls_toList hc⟩) rfl
  exact Expr.plain_calls (List.forall_mem_singleton.mpr he)

theorem gives_assertStatement (h : r.Plain) : Gives (assertStatement r) Stmt.Plain := by
  refine gives_seq gives_line fun line => gives_seq (gives_expect _) fun _ => ?_
  refine gives_bind h.expression fun test ht => gives_seq (gives_accept ",") fun _ => ?_
  refine gives_option h.expression fun message hm => gives_pure ?_
  refine Stmt.plain_of_calls rfl (List.forall_mem_append.mpr ⟨?_, Expr.plain_calls_toList hm⟩) rfl
  exact fun c hc => ht.call_outerCalls hc

theorem gives_declaration (r : Rules) (word : String) : Gives (declaration r word) Stmt.Plain := by
  refine gives_seq gives_line fun line => gives_seq (gives_expect _) fun _ => ?_
  refine gives_bind (gives_commaList _ gives_name) fun names _ => ?_
  exact gives_unless (gives_pure (plain_bare rfl rfl rfl))

theorem gives_returnStatement (h : r.Plain) : Gives (returnStatement r) Stmt.Plain := by
  refine gives_seq gives_line fun line => gives_seq (gives_expect _) fun _ => ?_
  refine gives_bind (gives_attempt (gives_starExpressions h)) fun value hv => gives_pure ?_
  exact Stmt.plain_of_parts (fun e he => hv e (Option.mem_toList.mp he)) (Expr.plain_calls_toList hv) rfl

theorem gives_simpleStatement (h : r.Plain) : Gives (simpleStatement r) Stmt.Plain := by
  refine gives_seq gives_line fun line => gives_looking fun ts _ => ?_
  split
  · exact gives_returnStatement h
  · exact gives_importStatement r
  · exact gives_importFromStatement r
  · exact gives_raiseStatement h
  · exact gives_deleteStatement h
  · exact gives_bind (gives_yieldExpression h) fun e he => gives_pure (plain_expr line he)
  · exact gives_assertStatement h
  · exact gives_declaration r _
  · exact gives_declaration r _
  · exact gives_seq gives_skip fun _ => gives_pure (plain_bare rfl rfl rfl)
  · exact gives_seq gives_skip fun _ => gives_pure (plain_bare rfl rfl rfl)
  · exact gives_seq gives_skip fun _ => gives_pure (plain_bare rfl rfl rfl)
  · exact gives_expressionStatement h

abbrev PlainBlock (block : Block) : Prop := Gives block fun ss => ∀ s ∈ ss, s.Plain

theorem gives_simpleStatements (h : r.Plain) : PlainBlock (simpleStatements r) := by
  refine gives_bind (gives_simpleStatement h) fun first hf => ?_
  refine gives_bind (gives_many _ (gives_seq (gives_expect ";") fun _ => gives_simpleStatement h))
    fun rest hr => ?_
  refine gives_seq (gives_accept ";") fun _ => gives_seq gives_newline fun _ => gives_pure ?_
  exact List.forall_mem_cons.mpr ⟨hf, hr⟩

section Compound

variable {block : Block} {body orelse final : List Stmt}

theorem gives_elseBlock (hb : PlainBlock block) : PlainBlock (elseBlock block) := by
  refine gives_seq (gives_accept "else") fun _ => gives_ite ?_ (gives_pure (List.forall_mem_nil _))
  exact gives_seq (gives_expect ":") fun _ => hb

theorem gives_finallyBlock (hb : PlainBlock block) : PlainBlock (finallyBlock block) := by
  refine gives_seq (gives_accept "finally") fun _ => gives_ite ?_ (gives_pure (List.forall_mem_nil _))
  exact gives_seq (gives_expect ":") fun _ => hb

theorem plain_tested {test : Expr} (ht : test.Plain) (hb : ∀ s ∈ body, s.Plain)
    (ho : ∀ s ∈ orelse, s.Plain) :
    (∀ e ∈ test :: Stmt.loweredList body ++ Stmt.loweredList orelse, e.Plain) ∧
    ∀ c ∈ test.outerCalls ++ Stmt.innerCallsList body ++ Stmt.innerCallsList orelse,
      (Expr.call c).Plain := by
  simp only [List.cons_append, List.forall_mem_cons, List.forall_mem_append]
  exact ⟨⟨ht, Stmt.plain_loweredList hb, Stmt.plain_loweredList ho⟩,
    ⟨fun c hc => ht.call_outerCalls hc, Stmt.plain_innerCallsList hb⟩, Stmt.plain_innerCallsList ho⟩

theorem plain_ifElse (line : Nat) {test : Expr} (ht : test.Plain) (hb : ∀ s ∈ body, s.Plain)
    (ho : ∀ s ∈ orelse, s.Plain) : (Stmt.ifElse line test body orelse).Plain :=
  Stmt.plain_of_parts (plain_tested ht hb ho).1 (plain_tested ht hb ho).2 rfl

theorem gives_ifRest (h : r.Plain) (hb : PlainBlock block) (bound line : Nat) :
    Gives (ifRest r block bound line) Stmt.Plain := by
  induction bound generalizing line with
  | zero => exact gives_failure
  | succ bound ih =>
    refine gives_bind (gives_namedExpression h) fun test ht => gives_seq (gives_expect ":") fun _ => ?_
    refine gives_bind hb fun body hbody => gives_seq gives_line fun here => ?_
    refine gives_seq (gives_accept "elif") fun _ => gives_ite ?_ ?_
    · refine gives_bind (ih here) fun s hs => gives_pure (plain_ifElse line ht hbody ?_)
      exact List.forall_mem_singleton.mpr hs
    · exact gives_bind (gives_elseBlock hb) fun ss hss => gives_pure (plain_ifElse line ht hbody hss)

theorem gives_whileStatement (h : r.Plain) (hb : PlainBlock block) (line : Nat) :
    Gives (whileStatement r block line) Stmt.Plain := by
  refine gives_seq (gives_expect _) fun _ => gives_bind (gives_namedExpression h) fun test ht => ?_
  refine gives_seq (gives_expect ":") fun _ => gives_bind hb fun body hbody => ?_
  refine gives_bind (gives_elseBlock hb) fun ss hss => gives_pure ?_
  exact Stmt.plain_of_parts (plain_tested ht hbody hss).1 (plain_tested ht hbody hss).2 rfl

theorem gives_forStatement (h : r.Plain) (hb : PlainBlock block) (line : Nat) :
    Gives (forStatement r block line) Stmt.Plain := by
  refine gives_seq (gives_expect _) fun _ => gives_bind (gives_loopTargets h) fun target ht => ?_
  refine gives_seq (gives_expect _) fun _ => gives_bind (gives_starExpressions h) fun source hs => ?_
  refine gives_seq (gives_expect ":") fun _ => gives_bind hb fun body hbody => ?_
  refine gives_bind (gives_elseBlock hb) fun ss hss => gives_pure ?_
  obtain ⟨hlowered, hcalls⟩ := plain_tested hs hbody hss
  refine Stmt.plain_of_parts hlowered ?_ rfl
  simp only [Stmt.innerCalls, List.forall_mem_append] at hcalls ⊢
  exact ⟨⟨⟨fun c hc => ht.call_outerCalls hc, hcalls.1.1⟩, hcalls.1.2⟩, hcalls.2⟩

def PlainWith (i : WithItem) : Prop := ∀ e ∈ i.parts, e.Plain

theorem gives_withItem (h : r.Plain) : Gives (withItem r) PlainWith := by
  refine gives_bind h.expression fun context hc => ?_
  refine gives_bind (gives_attempt (Q := Expr.Plain) ?_) fun o ho => gives_pure ?_
  · have htarget {e : Expr} (he : e.Plain) : Gives (do
        if !(← seesAny [",", ")", ":"]) then failure
        orFail (e.asTarget? .store true)) Expr.Plain := by
      refine gives_seq (gives_seesAny _) fun _ => gives_unless ?_
      exact gives_orFail fun t => Expr.plain_asTarget? he
    refine gives_seq (gives_expect _) fun _ => gives_seq gives_line fun line => ?_
    refine gives_seq (gives_accept "*") fun _ => gives_ite ?_ ?_
    · refine gives_bind h.bitwiseOr fun e he => htarget ?_
      exact plain_of_children (List.forall_mem_singleton.mpr he) rfl
    · exact gives_bind h.bitwiseOr fun e he => htarget he
  · exact List.forall_mem_cons.mpr ⟨hc, fun e he => ho e (Option.mem_toList.mp he)⟩

theorem gives_withItems (h : r.Plain) : Gives (withItems r) fun is => ∀ i ∈ is, PlainWith i := by
  refine gives_bind (gives_attempt (Q := fun is => ∀ i ∈ is, PlainWith i) ?_) fun o ho => ?_
  · refine gives_seq (gives_expect _) fun _ => ?_
    refine gives_bind (gives_commaList _ (gives_withItem h)) fun items hitems => ?_
    exact gives_seq (gives_expect _) fun _ => gives_seq (gives_expect _) fun _ => gives_pure hitems
  cases o with
  | some items => exact gives_pure (ho items rfl)
  | none =>
    refine gives_bind (gives_commaList _ (gives_withItem h)) fun items hitems => gives_unless ?_
    exact gives_seq (gives_expect _) fun _ => gives_pure hitems

theorem gives_withStatement (h : r.Plain) (hb : PlainBlock block) (line : Nat) :
    Gives (withStatement r block line) Stmt.Plain := by
  refine gives_seq (gives_expect _) fun _ => gives_bind (gives_withItems h) fun items hitems => ?_
  refine gives_bind hb fun body hbody => gives_pure (Stmt.plain_of_parts ?_ ?_ rfl)
  · refine List.forall_mem_append.mpr ⟨List.forall_mem_map.mpr ?_, Stmt.plain_loweredList hbody⟩
    exact fun i hi => hitems i hi _ List.mem_cons_self
  · refine List.forall_mem_append.mpr ⟨Expr.plain_calls ?_, Stmt.plain_innerCallsList hbody⟩
    exact List.forall_mem_flatMap.mpr hitems

theorem gives_handler (h : r.Plain) (hb : PlainBlock block) (group : Bool) :
    Gives (handler r block group) fun k => ∀ c ∈ Stmt.innerCallsHandler k, (Expr.call c).Plain := by
  have hrest : Gives (do
      if !group && (← accept ":") then return Handler.mk none none (← block)
      else
        let type ← r.expression
        let id ← if ← accept "as" then pure (some (← name)) else pure none
        expect ":"
        return .mk (some type) id (← block))
      fun k => ∀ c ∈ Stmt.innerCallsHandler k, (Expr.call c).Plain := by
    refine gives_seq (gives_accept ":") fun _ => gives_ite ?_ ?_
    · exact gives_bind hb fun body hbody => gives_pure (Stmt.plain_innerCallsList hbody)
    refine gives_bind h.expression fun type ht => gives_seq (gives_accept _) fun _ => ?_
    refine gives_option gives_name fun id _ => gives_seq (gives_expect _) fun _ => ?_
    refine gives_bind hb fun body hbody => gives_pure ?_
    refine List.forall_mem_append.mpr ⟨?_, Stmt.plain_innerCallsList hbody⟩
    exact Expr.plain_calls (List.forall_mem_singleton.mpr ht)
  refine gives_seq (gives_expect _) fun _ => gives_ite ?_ ?_
  · exact gives_seq (gives_expect _) fun _ => hrest
  · exact gives_seq (gives_sees _) fun _ => gives_unless hrest

theorem plain_tryBlock (line : Nat) {handlers : List Handler} (hb : ∀ s ∈ body, s.Plain)
    (hh : ∀ k ∈ handlers, ∀ c ∈ Stmt.innerCallsHandler k, (Expr.call c).Plain)
    (ho : ∀ s ∈ orelse, s.Plain) (hf : ∀ s ∈ final, s.Plain) :
    (Stmt.tryBlock line body handlers orelse final).Plain ∧
      (Stmt.tryGroup line body handlers orelse final).Plain := by
  have hcalls : ∀ c ∈ Stmt.innerCallsList body ++ Stmt.innerCallsHandlers handlers ++
      Stmt.innerCallsList orelse ++ Stmt.innerCallsList final, (Expr.call c).Plain := by
    simp only [List.forall_mem_append]
    exact ⟨⟨⟨Stmt.plain_innerCallsList hb, Stmt.plain_innerCallsHandlers hh⟩,
      Stmt.plain_innerCallsList ho⟩, Stmt.plain_innerCallsList hf⟩
  refine ⟨Stmt.plain_of_parts ?_ hcalls rfl, Stmt.plain_of_calls rfl hcalls rfl⟩
  simp only [Stmt.lowered, List.forall_mem_append]
  exact ⟨⟨Stmt.plain_loweredList hb, Stmt.plain_loweredList ho⟩, Stmt.plain_loweredList hf⟩

theorem gives_tryStatement (h : r.Plain) (hb : PlainBlock block) (line : Nat) :
    Gives (tryStatement r block line) Stmt.Plain := by
  refine gives_seq (gives_expect _) fun _ => gives_seq (gives_expect _) fun _ => ?_
  refine gives_bind hb fun body hbody => gives_seq (gives_sees _) fun _ => gives_ite ?_ ?_
  · refine gives_bind (gives_finallyBlock hb) fun final hf => gives_pure ?_
    exact (plain_tryBlock line hbody (List.forall_mem_nil _) (List.forall_mem_nil _) hf).1
  refine gives_seq (gives_sees _) fun _ => gives_seq (gives_seesNext _) fun _ => ?_
  refine gives_bind (gives_many1 _ (gives_handler h hb _)) fun handlers hh => ?_
  refine gives_bind (gives_elseBlock hb) fun orelse ho => ?_
  refine gives_bind (gives_finallyBlock hb) fun final hf => gives_pure ?_
  obtain ⟨hblock, hgroup⟩ := plain_tryBlock line hbody hh ho hf
  split
  · exact hgroup
  · exact hblock

theorem gives_functionStatement (h : r.Plain) (hb : PlainBlock block) (line : Nat)
    (decorators : List Expr) : Gives (functionStatement r block line decorators) Stmt.Plain := by
  refine gives_seq (gives_expect _) fun _ => gives_seq gives_name fun id => ?_
  refine gives_seq (gives_expect _) fun _ => gives_bind (gives_parameters h true _) fun ps hps => ?_
  refine gives_seq (gives_expect _) fun _ => gives_seq (gives_accept _) fun _ => ?_
  refine gives_option h.expression fun typeHint _ => gives_seq (gives_expect _) fun _ => ?_
  exact gives_bind hb fun body hbody => gives_pure (Stmt.plain_functionDef line id hps hbody _)

theorem gives_classStatement (h : r.Plain) (hb : PlainBlock block) (line : Nat)
    (decorators : List Expr) : Gives (classStatement r block line decorators) Stmt.Plain := by
  refine gives_seq (gives_expect _) fun _ => gives_seq gives_name fun id => ?_
  have hrest (bases : List Argument) :
      Gives (do
        expect ":"
        return Stmt.classDef line id (← block) (decorators ++ bases.map Argument.value))
        Stmt.Plain := by
    refine gives_seq (gives_expect _) fun _ => gives_bind hb fun body hbody => gives_pure ?_
    exact Stmt.plain_classDef line id hbody _
  refine gives_seq (gives_accept _) fun _ => gives_ite ?_ (hrest [])
  exact gives_bind (gives_arguments h none) fun bases _ => hrest bases

theorem gives_caseBlock (h : r.Plain) (hb : PlainBlock block) :
    Gives (caseBlock r block) fun k => ∀ c ∈ Stmt.innerCallsCase k, (Expr.call c).Plain := by
  refine gives_seq (gives_softKeyword _) fun _ => gives_bind (gives_casePattern h) fun p hp => ?_
  refine gives_seq (gives_accept _) fun _ => gives_option (gives_namedExpression h) fun guard hg => ?_
  refine gives_seq (gives_expect _) fun _ => gives_bind hb fun body hbody => gives_pure ?_
  simp only [Stmt.innerCallsCase, List.forall_mem_append]
  exact ⟨⟨hp, Expr.plain_calls_toList hg⟩, Stmt.plain_innerCallsList hbody⟩

theorem gives_subject (h : r.Plain) : Gives (subject r) Expr.Plain := by
  refine gives_seq gives_line fun line => ?_
  refine gives_bind (gives_commaList _ (gives_starNamedExpression h)) fun items hitems => ?_
  obtain ⟨items, trailing⟩ := items
  dsimp only
  split
  · exact gives_ite gives_failure (gives_pure (hitems _ List.mem_cons_self))
  · exact gives_pure (plain_of_children hitems rfl)

theorem gives_matchStatement (h : r.Plain) (hb : PlainBlock block) (line : Nat) :
    Gives (matchStatement r block line) Stmt.Plain := by
  refine gives_seq (gives_softKeyword _) fun _ => gives_bind (gives_subject h) fun e he => ?_
  refine gives_seq (gives_expect _) fun _ => gives_seq gives_newline fun _ => ?_
  refine gives_seq gives_indent fun _ => ?_
  refine gives_bind (gives_many1 _ (gives_caseBlock h hb)) fun cs hcs => ?_
  refine gives_seq gives_dedent fun _ => gives_pure (Stmt.plain_of_calls rfl ?_ rfl)
  exact List.forall_mem_append.mpr
    ⟨fun c hc => he.call_outerCalls hc, Stmt.plain_innerCallsCases hcs⟩

theorem gives_decorated (h : r.Plain) (hb : PlainBlock block) : Gives (decorated r block) Stmt.Plain := by
  refine gives_bind (gives_many1 (Q := fun _ => True) _ ?_) fun decorators _ => ?_
  · refine gives_seq (gives_expect _) fun _ => gives_bind (gives_namedExpression h) fun _ _ => ?_
    exact gives_seq gives_newline fun _ => gives_pure trivial
  refine gives_seq gives_line fun line => gives_seq (gives_sees _) fun _ => ?_
  refine gives_ite (gives_classStatement h hb line decorators) ?_
  exact gives_seq (gives_accept _) fun _ => gives_functionStatement h hb line decorators

theorem gives_asyncStatement (h : r.Plain) (hb : PlainBlock block) (line : Nat) :
    Gives (asyncStatement r block line) Stmt.Plain := by
  refine gives_seq (gives_expect _) fun _ => gives_seq (gives_sees _) fun _ => ?_
  refine gives_ite (gives_functionStatement h hb line []) ?_
  refine gives_seq (gives_sees _) fun _ => gives_ite (gives_withStatement h hb line) ?_
  exact gives_forStatement h hb line

theorem gives_statements (h : r.Plain) (hb : PlainBlock block) : PlainBlock (statements r block) := by
  have hone {p : Parser Stmt} (hp : Gives p Stmt.Plain) :
      PlainBlock (do return [← p]) :=
    gives_bind hp fun s hs => gives_pure (List.forall_mem_singleton.mpr hs)
  refine gives_seq gives_line fun line => gives_looking fun ts _ => ?_
  split
  · exact hone (gives_functionStatement h hb line [])
  · exact hone (gives_decorated h hb)
  · exact hone (gives_asyncStatement h hb line)
  · exact gives_seq gives_skip fun _ => hone (gives_ifRest h hb _ line)
  · exact hone (gives_classStatement h hb line [])
  · exact hone (gives_withStatement h hb line)
  · exact hone (gives_forStatement h hb line)
  · exact hone (gives_tryStatement h hb line)
  · exact hone (gives_whileStatement h hb line)
  · refine gives_bind (gives_attempt (gives_matchStatement h hb line)) fun o ho => ?_
    cases o with
    | some s => exact gives_pure (List.forall_mem_singleton.mpr (ho s rfl))
    | none => exact gives_simpleStatements h
  · exact gives_simpleStatements h

end Compound

theorem gives_blockAt (h : r.Plain) (depth : Nat) : PlainBlock (blockAt r depth) := by
  induction depth with
  | zero => exact gives_failure
  | succ depth ih =>
    refine gives_bind (gives_attempt gives_newline) fun o _ => ?_
    cases o with
    | none => exact gives_simpleStatements h
    | some _ =>
      refine gives_seq gives_indent fun _ => ?_
      refine gives_bind (gives_many1 _ (gives_statements h ih)) fun ss hss => ?_
      exact gives_seq gives_dedent fun _ => gives_pure (List.forall_mem_flatten.mpr hss)

end Grammar

theorem plain_readModule {source : List Char} {statements : List Stmt}
    (h : readModule? source = some statements) : ∀ s ∈ statements, s.Plain := by
  unfold readModule? at h
  obtain ⟨tokens, htokens, h⟩ := Option.bind_eq_some_iff.mp h
  obtain ⟨⟨ss, rest⟩, hss, h⟩ := Option.bind_eq_some_iff.mp h
  dsimp only at h
  split at h
  · cases h
    have hrules := Grammar.plain_rules (source.length + 2) (source.length + 2)
    refine List.forall_mem_flatten.mpr ?_
    exact (Parser.gives_many _ (Grammar.gives_statements hrules (Grammar.gives_blockAt hrules _))
      tokens (Token.plain_scan htokens) ss rest hss).1
  · cases h

/-- Every constant that a function of a module mentions has a truth value. -/
theorem plain_of_mentions {source : List Char} {statements : List Stmt}
    (h : readModule? source = some statements) {e : Expr}
    (he : Mentions (Signature.collect statements) e) : e.Plain := by
  obtain ⟨f, hf, x, hx, hold⟩ := he
  obtain ⟨p, hp, rfl⟩ := OrderedMap.mem_values_ofList hf
  obtain ⟨f, hmem, rfl⟩ := List.mem_map.mp hp
  obtain ⟨s, hs, hfs⟩ := List.mem_flatMap.mp hmem
  exact ((plain_readModule h s hs).functions f hfs x hx).holds hold

end CallTime.Source

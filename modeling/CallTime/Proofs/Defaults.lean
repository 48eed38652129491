import CallTime.Proofs.CallGraph
import CallTime.Source.Lower

/-!
Which default values the calls in a source put in.

A call that leaves out an argument puts in the default value, whose calls may in turn put in default
values. The levels of lowering are enough for that unless a default value comes round again.
-/

namespace CallTime

namespace OrderedMap

variable {α β : Type} [DecidableEq α]

theorem get?_of_contains {m : OrderedMap α β} {k : α}
    (h : m.contains k = true) : ∃ v, m.get? k = some v := by
  obtain ⟨e, he, hk⟩ := List.any_eq_true.mp h
  have hs : (m.entries.find? (·.1 = k)).isSome := List.find?_isSome.mpr ⟨e, he, hk⟩
  obtain ⟨e', he'⟩ := Option.isSome_iff_exists.mp hs
  exact ⟨e'.2, by rw [get?, he']; rfl⟩

theorem mem_entries_of_get? {m : OrderedMap α β} {k : α} {v : β} (h : m.get? k = some v) :
    (k, v) ∈ m.entries := by
  obtain ⟨⟨k', v'⟩, he, rfl⟩ := Option.map_eq_some_iff.mp h
  obtain rfl : k' = k := by simpa using List.find?_some he
  exact List.mem_of_find?_eq_some he

theorem mem_values_erase {m : OrderedMap α β} {k : α} {v : β} (h : v ∈ (m.erase k).values) :
    v ∈ m.values := by
  obtain ⟨e, he, rfl⟩ := List.mem_map.mp h
  exact List.mem_map_of_mem (List.mem_filter.mp he).1

theorem mem_values_foldl_insert {es : List (α × β)} {m : OrderedMap α β} {v : β}
    (h : v ∈ (es.foldl (fun m e => m.insert e.1 e.2) m).values) :
    (∃ e ∈ es, e.2 = v) ∨ v ∈ m.values := by
  induction es generalizing m with
  | nil => exact .inr h
  | cons e es ih =>
    obtain ⟨e', he', hv⟩ | hv := ih h
    · exact .inl ⟨e', List.mem_cons_of_mem e he', hv⟩
    · obtain hv | hv := mem_values_insert hv
      · exact .inl ⟨e, List.mem_cons_self, hv.symm⟩
      · exact .inr hv

theorem mem_values_ofList {es : List (α × β)} {v : β} (h : v ∈ (ofList es).values) :
    ∃ e ∈ es, e.2 = v :=
  (mem_values_foldl_insert h).resolve_right (List.not_mem_nil)

end OrderedMap

namespace Source

open Relation

def Slot.From {ε : Type} (s : Signature) (V : ε → Prop) : Slot ε → Prop
  | .value e => V e
  | .default name => s.defaults.contains name = true
  | .unknown _ => True

namespace Binding

variable {ε : Type} {s : Signature} {V : ε → Prop} {m : OrderedMap String ε}

theorem slotOf_from (unsure : Bool) (name : String) (hm : ∀ e ∈ m.values, V e) :
    ((slotOf s unsure name).run m).1.From s V ∧
      ∀ e ∈ ((slotOf s unsure name).run m).2.values, V e := by
  simp only [slotOf, bind, StateT.bind, StateT.run, get, getThe, MonadStateOf.get, StateT.get, pure]
  cases h : m.get? name with
  | some e =>
    exact ⟨hm e (OrderedMap.mem_values_of_get? h), fun e' he => hm e' (OrderedMap.mem_values_erase he)⟩
  | none =>
    refine ⟨?_, hm⟩
    change Slot.From s V (if !unsure && s.defaults.contains name then .default name else .unknown name)
    split
    · next hd => exact (Bool.and_eq_true_iff.mp hd).2
    · trivial

theorem positionalSlots_from (unsure : Bool) (names : List String) {es : List ε}
    (hes : ∀ e ∈ es, V e) (hm : ∀ e ∈ m.values, V e) :
    (∀ slot ∈ ((positionalSlots s unsure names es).run m).1, slot.From s V) ∧
      ∀ e ∈ ((positionalSlots s unsure names es).run m).2.values, V e := by
  induction names generalizing es m with
  | nil => exact ⟨List.forall_mem_nil _, hm⟩
  | cons name names ih =>
    cases es with
    | nil =>
      obtain ⟨hslot, hrest⟩ := slotOf_from unsure name hm
      obtain ⟨hslots, hleft⟩ := ih hes hrest
      exact ⟨List.forall_mem_cons.mpr ⟨hslot, hslots⟩, hleft⟩
    | cons e es =>
      obtain ⟨he, hes⟩ := List.forall_mem_cons.mp hes
      obtain ⟨hslots, hleft⟩ := ih hes hm
      exact ⟨List.forall_mem_cons.mpr ⟨he, hslots⟩, hleft⟩

theorem mapM_slotOf_from (unsure : Bool) (names : List String) (hm : ∀ e ∈ m.values, V e) :
    (∀ slot ∈ ((names.mapM (slotOf s unsure)).run m).1, slot.From s V) ∧
      ∀ e ∈ ((names.mapM (slotOf s unsure)).run m).2.values, V e := by
  induction names generalizing m with
  | nil => exact ⟨List.forall_mem_nil _, hm⟩
  | cons name names ih =>
    obtain ⟨hslot, hrest⟩ := slotOf_from unsure name hm
    obtain ⟨hslots, hleft⟩ := ih hrest
    rw [List.mapM_cons]
    exact ⟨List.forall_mem_cons.mpr ⟨hslot, hslots⟩, hleft⟩

def bindAll (s : Signature) (unsure unsure' : Bool) (leading : List ε) :
    StateM (OrderedMap String ε) (List (Slot ε)) := do
  let positional ← positionalSlots s unsure s.positional leading
  let keywordOnly ← s.keywordOnly.mapM (slotOf s unsure')
  return positional ++ s.rest.toList.map .unknown ++ keywordOnly ++ s.keywordRest.toList.map .unknown

theorem make_eq (s : Signature) (arguments : List (Passed ε)) (keywords : List (Keyword ε)) :
    make s arguments keywords =
      let leading := (arguments.takeWhile (!·.starred)).map (·.value)
      let trailing := (arguments.dropWhile (!·.starred)).map (·.value)
      let named := OrderedMap.ofList (keywords.filterMap fun k => k.name.map (·, k.value))
      let unpacked := keywords.filterMap fun k => if k.name.isNone then some k.value else none
      let bound := (bindAll s (!trailing.isEmpty || !unpacked.isEmpty) (!unpacked.isEmpty) leading).run named
      { slots := bound.1
        spare := leading.drop s.positional.length ++ trailing ++ bound.2.values ++ unpacked } :=
  rfl

theorem bindAll_from (unsure unsure' : Bool) {leading : List ε} (hl : ∀ e ∈ leading, V e)
    (hm : ∀ e ∈ m.values, V e) :
    (∀ slot ∈ ((bindAll s unsure unsure' leading).run m).1, slot.From s V) ∧
      ∀ e ∈ ((bindAll s unsure unsure' leading).run m).2.values, V e := by
  obtain ⟨hp, hm⟩ := positionalSlots_from unsure s.positional hl hm
  obtain ⟨hk, hleft⟩ := mapM_slotOf_from unsure' s.keywordOnly hm
  refine ⟨fun slot h => ?_, hleft⟩
  have hunknown (names : List String) (h : slot ∈ names.map Slot.unknown) : slot.From s V := by
    obtain ⟨name, -, rfl⟩ := List.mem_map.mp h
    trivial
  replace h : slot ∈ _ ++ _ ++ _ ++ _ := h
  simp only [List.mem_append] at h
  obtain ((h | h) | h) | h := h
  · exact hp slot h
  · exact hunknown _ h
  · exact hk slot h
  · exact hunknown _ h

theorem make_from {arguments : List (Passed ε)} {keywords : List (Keyword ε)}
    (ha : ∀ p ∈ arguments, V p.value) (hk : ∀ k ∈ keywords, V k.value) :
    (∀ slot ∈ (make s arguments keywords).slots, slot.From s V) ∧
      ∀ e ∈ (make s arguments keywords).spare, V e := by
  have hvalues {ps : List (Passed ε)} (h : ps.Sublist arguments) : ∀ e ∈ ps.map (·.value), V e :=
    List.forall_mem_map.mpr fun p hp => ha p (h.subset hp)
  have hleading := hvalues (arguments.takeWhile_sublist (!·.starred))
  have htrailing := hvalues (arguments.dropWhile_sublist (!·.starred))
  have hnamed : ∀ e ∈ (OrderedMap.ofList
      (keywords.filterMap fun k => k.name.map (·, k.value))).values, V e := by
    intro e he
    obtain ⟨e', he', rfl⟩ := OrderedMap.mem_values_ofList he
    obtain ⟨k, hk', h⟩ := List.mem_filterMap.mp he'
    obtain ⟨name, -, rfl⟩ := Option.map_eq_some_iff.mp h
    exact hk k hk'
  have hunpacked : ∀ e ∈ keywords.filterMap
      (fun k => if k.name.isNone then some k.value else none), V e := by
    intro e he
    obtain ⟨k, hk', h⟩ := List.mem_filterMap.mp he
    split at h
    · cases h
      exact hk k hk'
    · cases h
  rw [make_eq]
  refine ⟨(bindAll_from _ _ hleading hnamed).1, fun e h => ?_⟩
  simp only [List.mem_append] at h
  obtain ((h | h) | h) | h := h
  · exact hleading e (List.mem_of_mem_drop h)
  · exact htrailing e h
  · exact (bindAll_from _ _ hleading hnamed).2 e h
  · exact hunpacked e h

theorem length_positionalSlots (s : Signature) (unsure : Bool) (names : List String) (es : List ε)
    (m : OrderedMap String ε) : ((positionalSlots s unsure names es).run m).1.length = names.length := by
  induction names generalizing es m with
  | nil => rfl
  | cons name names ih =>
    cases es with
    | nil => exact congrArg (· + 1) (ih [] _)
    | cons e es => exact congrArg (· + 1) (ih es m)

theorem length_mapM_run {α β σ : Type} (f : α → StateM σ β) (as : List α) (s : σ) :
    ((as.mapM f).run s).1.length = as.length := by
  induction as generalizing s with
  | nil => rfl
  | cons a as ih =>
    rw [List.mapM_cons]
    exact congrArg (· + 1) (ih _)

theorem length_bindAll (s : Signature) (unsure unsure' : Bool) (leading : List ε)
    (m : OrderedMap String ε) :
    ((bindAll s unsure unsure' leading).run m).1.length = s.parameters.length := by
  change (((positionalSlots s unsure s.positional leading).run m).1 ++ _ ++
    ((s.keywordOnly.mapM (slotOf s unsure')).run _).1 ++ _).length = _
  simp only [List.length_append, List.length_map, length_positionalSlots, length_mapM_run,
    Signature.parameters]

theorem length_slots (s : Signature) (arguments : List (Passed ε)) (keywords : List (Keyword ε)) :
    (make s arguments keywords).slots.length = s.parameters.length := by
  rw [make_eq]
  exact length_bindAll s _ _ _ _

end Binding

namespace Expr

def Holds : Expr → Expr → Prop := ReflTransGen fun e c => c ∈ e.children

theorem holds_child {e c : Expr} (h : c ∈ e.children) : e.Holds c := .single h

theorem holds_innerCalls {e : Expr} {s : CallSite Expr} (h : s ∈ e.innerCalls) :
    e.Holds (.call s) := by
  rw [innerCalls] at h
  obtain ⟨⟨c, hc⟩, -, hs⟩ := List.mem_flatMap.mp h
  have hlt := sizeOf_child e c hc
  cases c with
  | call site =>
    obtain rfl := List.mem_singleton.mp hs
    exact holds_child hc
  | lambda => cases hs
  | _ => exact .head hc (holds_innerCalls hs)
termination_by sizeOf e
decreasing_by all_goals exact hlt

theorem holds_spareCalls {n : Nat} {e : { c : Expr // sizeOf c < n }}
    {s : { s : CallSite Expr // sizeOf s < n }} (h : s ∈ spareCalls e) : e.1.Holds (.call s.1) := by
  obtain ⟨e, he⟩ := e
  cases e with
  | call site =>
    obtain rfl := List.mem_singleton.mp h
    exact .refl
  | _ =>
    obtain ⟨⟨c, hc⟩, -, rfl⟩ := List.mem_map.mp h
    exact holds_innerCalls hc

theorem mem_comparisonSteps {α : Type} {left : α} {cs : List (Comparand α)} {l r : α}
    {op : Comparison} (h : (l, op, r) ∈ comparisonSteps left cs) :
    (l = left ∨ ∃ c ∈ cs, c.value = l) ∧ ∃ c ∈ cs, c.value = r := by
  induction cs generalizing left with
  | nil => cases h
  | cons c cs ih =>
    obtain h | h := List.mem_cons.mp h
    · cases h
      exact ⟨.inl rfl, c, List.mem_cons_self, rfl⟩
    · obtain ⟨hl, c', hc', hr⟩ := ih h
      refine ⟨.inr ?_, c', List.mem_cons_of_mem c hc', hr⟩
      obtain rfl | ⟨c'', hc'', hl⟩ := hl
      · exact ⟨c, List.mem_cons_self, rfl⟩
      · exact ⟨c'', List.mem_cons_of_mem c hc'', hl⟩

theorem mem_comparisonParts {line : Nat} {left : Expr} {rest : List (Comparand Expr)}
    {l r : { c : Expr // sizeOf c < sizeOf (Expr.compare line left rest) }} {op : Comparison}
    (h : (l, op, r) ∈ comparisonParts line left rest) :
    l.1 ∈ (Expr.compare line left rest).children ∧ r.1 ∈ (Expr.compare line left rest).children := by
  obtain ⟨hl, c, hc, hr⟩ := mem_comparisonSteps h
  constructor
  · obtain rfl | ⟨c, hc, rfl⟩ := hl
    · exact List.mem_cons_self
    · obtain ⟨⟨d, hd⟩, -, rfl⟩ := List.mem_map.mp hc
      exact List.mem_cons_of_mem left (List.mem_map_of_mem hd)
  · obtain ⟨⟨d, hd⟩, -, rfl⟩ := List.mem_map.mp hc
    rw [← hr]
    exact List.mem_cons_of_mem left (List.mem_map_of_mem hd)

end Expr

namespace CallSite

variable {s : CallSite Expr}

theorem holds_passed {p : Passed { c : Expr // sizeOf c < sizeOf s }} (h : p ∈ s.passed) :
    (Expr.call s).Holds p.value.1 := by
  obtain ⟨⟨e, he⟩, -, rfl⟩ := List.mem_map.mp h
  have hcall : (Expr.call s).Holds e :=
    Expr.holds_child (List.mem_append_left _ (List.mem_cons_of_mem _ he))
  cases e with
  | starred line v => exact hcall.tail List.mem_cons_self
  | _ => exact hcall

theorem holds_named {k : Keyword { c : Expr // sizeOf c < sizeOf s }} (h : k ∈ s.named) :
    (Expr.call s).Holds k.value.1 := by
  obtain ⟨⟨k, hk⟩, -, rfl⟩ := List.mem_map.mp h
  exact Expr.holds_child (List.mem_append_right _ (List.mem_map_of_mem hk))

theorem make_from (signature : Signature) (s : CallSite Expr) :
    (∀ slot ∈ (Binding.make signature s.passed s.named).slots,
      slot.From signature fun e => (Expr.call s).Holds e.1) ∧
    ∀ e ∈ (Binding.make signature s.passed s.named).spare, (Expr.call s).Holds e.1 :=
  Binding.make_from (fun _ h => holds_passed h) fun _ h => holds_named h

end CallSite

mutual

def Stmt.lowered : Stmt → List Expr
  | .ifElse _ test body orelse | .whileLoop _ test body orelse =>
    test :: loweredList body ++ loweredList orelse
  | .forLoop _ _ source body orelse => source :: loweredList body ++ loweredList orelse
  | .withBlock _ items body => items.map (·.context) ++ loweredList body
  | .tryBlock _ body _ orelse final => loweredList body ++ loweredList orelse ++ loweredList final
  | .ret _ value | .annotate _ _ _ value _ => value.toList
  | .expr _ value | .assign _ _ value | .augment _ _ _ value => [value]
  | .delete line targets => (Stmt.delete line targets).innerCalls.map .call
  | .matchCases line subject cases => (Stmt.matchCases line subject cases).innerCalls.map .call
  | .raise line exception cause => (Stmt.raise line exception cause).innerCalls.map .call
  | .tryGroup line body handlers orelse final =>
    (Stmt.tryGroup line body handlers orelse final).innerCalls.map .call
  | .assert line test message => (Stmt.assert line test message).innerCalls.map .call
  | _ => []
termination_by structural s => s

def Stmt.loweredList : List Stmt → List Expr
  | [] => []
  | s :: ss => s.lowered ++ loweredList ss
termination_by structural ss => ss

end

def Mentions (signatures : OrderedMap String Signature) (e : Expr) : Prop :=
  ∃ s ∈ signatures.values, ∃ x ∈ Stmt.loweredList s.body ++ s.defaults.values, x.Holds e

/-- The value is a constant of a function, or the negation of one. -/
inductive Spelled (signatures : OrderedMap String Signature) : Value → Prop
  | constant {line : Nat} {v : Value} {spelling : Spelling}
    (h : Mentions signatures (.constant line v spelling)) : Spelled signatures v
  | negated {line : Nat} {v w : Value} {spelling : Spelling}
    (h : Mentions signatures (.constant line v spelling)) (hw : negated? v = some w) :
    Spelled signatures w

def Scope.Spelled (signatures : OrderedMap String Signature) (scope : Scope) : Prop :=
  ∀ c ∈ scope.constants.values, Source.Spelled signatures c.value

def CallSite.Puts (signatures : OrderedMap String Signature) (scope : Scope) (c : CallSite Expr)
    (p : String × String) : Prop :=
  ∃ s, targetKey? signatures scope c.function = some p.1 ∧ signatures.get? p.1 = some s ∧
    .default p.2 ∈ (Binding.make s c.passed c.named).slots

def Follows (signatures : OrderedMap String Signature) (p q : String × String) : Prop :=
  ∃ s d, signatures.get? p.1 = some s ∧ s.defaults.get? p.2 = some d ∧
    ∃ c, d.Holds (.call c) ∧ c.Puts signatures {} q

def Circular (signatures : OrderedMap String Signature) : Prop :=
  ∃ p, TransGen (Follows signatures) p p

def defaultTable (signatures : OrderedMap String Signature) : List (String × String) :=
  signatures.entries.flatMap fun e => e.2.defaults.entries.map fun d => (e.1, d.1)

theorem length_defaultTable (signatures : OrderedMap String Signature) :
    (defaultTable signatures).length < defaultLevels signatures := by
  unfold defaultTable defaultLevels OrderedMap.values
  induction signatures.entries with
  | nil => exact Nat.one_pos
  | cons e es ih =>
    simp only [List.flatMap_cons, List.length_append, List.length_map, List.map_cons, List.foldr_cons,
      OrderedMap.size] at ih ⊢
    omega

section Rank

open Classical

noncomputable def defaultRank (signatures : OrderedMap String Signature) (p : String × String) : Nat :=
  (defaultTable signatures).countP fun q => ReflTransGen (Follows signatures) p q

theorem defaultRank_lt_levels (signatures : OrderedMap String Signature) (p : String × String) :
    defaultRank signatures p < defaultLevels signatures :=
  Nat.lt_of_le_of_lt List.countP_le_length (length_defaultTable signatures)

theorem defaultRank_pos {signatures : OrderedMap String Signature} {p : String × String}
    (h : p ∈ defaultTable signatures) : 0 < defaultRank signatures p :=
  List.countP_pos_iff.mpr ⟨p, h, decide_eq_true .refl⟩

theorem defaultRank_lt {signatures : OrderedMap String Signature} {p q : String × String}
    (hp : p ∈ defaultTable signatures) (hc : ¬Circular signatures) (h : Follows signatures p q) :
    defaultRank signatures q < defaultRank signatures p :=
  countP_leads_lt hp (fun hr => hc ⟨p, hr⟩) h

end Rank

theorem CallSite.Puts.mem_defaultTable {signatures : OrderedMap String Signature} {scope : Scope}
    {c : CallSite Expr} {p : String × String} (h : c.Puts signatures scope p) :
    p ∈ defaultTable signatures := by
  obtain ⟨s, -, hs, hp⟩ := h
  obtain ⟨d, hd⟩ := OrderedMap.get?_of_contains ((make_from s c).1 _ hp)
  exact List.mem_flatMap.mpr ⟨(p.1, s), OrderedMap.mem_entries_of_get? hs,
    List.mem_map.mpr ⟨(p.2, d), OrderedMap.mem_entries_of_get? hd, rfl⟩⟩

/-- The level is enough for the default values that the calls in the expression put in, and names stand
for constants of the module. -/
structure Ready (signatures : OrderedMap String Signature) (level : Nat) (scope : Scope) (e : Expr) :
    Prop where
  mentions : Mentions signatures e
  enough : ¬Circular signatures → ∀ c, e.Holds (.call c) → ∀ p, c.Puts signatures scope p →
    defaultRank signatures p ≤ level
  spelled : scope.Spelled signatures

variable {signatures : OrderedMap String Signature} {level : Nat} {scope : Scope} {e : Expr}

theorem Ready.of_holds (h : Ready signatures level scope e) {x : Expr} (hx : e.Holds x) :
    Ready signatures level scope x := by
  obtain ⟨s, hs, y, hy, he⟩ := h.mentions
  exact ⟨⟨s, hs, y, hy, he.trans hx⟩, fun hc c hh => h.enough hc c (hx.trans hh), h.spelled⟩

theorem Ready.child (h : Ready signatures level scope e) {x : Expr} (hx : x ∈ e.children) :
    Ready signatures level scope x :=
  h.of_holds (Expr.holds_child hx)

theorem ready_of_mentions (h : Mentions signatures e) (hs : scope.Spelled signatures) :
    Ready signatures (defaultLevels signatures) scope e :=
  ⟨h, fun _ _ _ p _ => Nat.le_of_lt (defaultRank_lt_levels signatures p), hs⟩

theorem Ready.default {c : CallSite Expr} {p : String × String} {s : Signature} {d : Expr}
    (h : Ready signatures (level + 1) scope (.call c)) (hp : c.Puts signatures scope p)
    (hs : signatures.get? p.1 = some s) (hd : s.defaults.get? p.2 = some d) :
    Ready signatures level {} d := by
  refine ⟨⟨s, OrderedMap.mem_values_of_get? hs, d,
    List.mem_append_right _ (OrderedMap.mem_values_of_get? hd), .refl⟩, fun hc c' hh q hq => ?_,
    List.forall_mem_nil _⟩
  have hlt := defaultRank_lt hp.mem_defaultTable hc ⟨s, d, hs, hd, c', hh, hq⟩
  have hle := h.enough hc c .refl p hp
  omega

/-- The levels run out only if a default value comes round again. -/
theorem Ready.circular {c : CallSite Expr} {p : String × String}
    (h : Ready signatures 0 scope (.call c)) (hp : c.Puts signatures scope p) :
    Circular signatures := by
  refine Classical.byContradiction fun hc => ?_
  have hpos := defaultRank_pos hp.mem_defaultTable
  have hle := h.enough hc c .refl p hp
  omega

end Source

end CallTime

import CallTime.Proofs.Visits
import Mathlib.Data.List.Perm.Basic

/-!
Calls of an expression that go astray when it is lowered.

Of what is called only the text is kept, inside a chain of comparisons an operand is taken twice, and
lambdas are passed over or have their bodies opened. Main statement: a call that lies in nothing astray is
lowered as often as it stands in the expression.
-/

namespace CallTime

open List (Perm perm_iff_count)

namespace OrderedMap

variable {α β : Type} [DecidableEq α]

/-- The values that lose their place when the entries are inserted one after the other. -/
def displaced (m : OrderedMap α β) : List (α × β) → List β
  | [] => []
  | e :: es => (m.get? e.1).toList ++ (m.insert e.1 e.2).displaced es

theorem values_insert_perm (m : OrderedMap α β) (k : α) (v : β) :
    ((m.get? k).toList ++ (m.insert k v).values).Perm (v :: m.values) := by
  obtain ⟨es⟩ := m
  induction es with
  | nil => exact .refl _
  | cons e es ih =>
    by_cases he : e.1 = k
    · simp only [get?, insert, insertEntry, values, List.find?_cons, he, decide_true, if_true]
      exact .swap _ _ _
    · simp only [get?, insert, insertEntry, values, List.find?_cons, he, decide_false, if_false,
        List.map_cons] at ih ⊢
      exact List.perm_middle.trans ((ih.cons e.2).trans (.swap _ _ _))

theorem values_foldl_insert_perm (es : List (α × β)) (m : OrderedMap α β) :
    (m.displaced es ++ (es.foldl (fun m e => m.insert e.1 e.2) m).values).Perm
      (es.map Prod.snd ++ m.values) := by
  induction es generalizing m with
  | nil => exact .refl _
  | cons e es ih =>
    classical
    rw [displaced, List.foldl_cons]
    have hi := values_insert_perm m e.1 e.2
    have hr := ih (m.insert e.1 e.2)
    rw [perm_iff_count] at hi hr ⊢
    intro a
    have hi := hi a
    have hr := hr a
    simp only [List.count_append, List.count_cons, List.map_cons, List.cons_append] at hi hr ⊢
    omega

theorem values_ofList_perm (es : List (α × β)) :
    (displaced {} es ++ (ofList es).values).Perm (es.map Prod.snd) := by
  have h := values_foldl_insert_perm es {}
  rw [show ({} : OrderedMap α β).values = [] from rfl, List.append_nil] at h
  exact h

theorem keys_erase_nodup {m : OrderedMap α β} (h : m.keys.Nodup) (k : α) :
    (m.erase k).keys.Nodup :=
  h.sublist (List.filter_sublist.map Prod.fst)

theorem values_erase_perm {m : OrderedMap α β} (h : m.keys.Nodup) (k : α) :
    ((m.get? k).toList ++ (m.erase k).values).Perm m.values := by
  obtain ⟨es⟩ := m
  induction es with
  | nil => exact .refl _
  | cons e es ih =>
    obtain ⟨hn, hes⟩ := List.nodup_cons.mp h
    by_cases he : e.1 = k
    · have hf : es.filter (fun e => decide (e.1 ≠ k)) = es := by
        refine List.filter_eq_self.mpr fun e' he' => decide_eq_true fun hk => hn ?_
        exact List.mem_map.mpr ⟨e', he', hk.trans he.symm⟩
      simp only [get?, erase, values, List.find?_cons, List.filter_cons, he, decide_true, ne_eq,
        not_true_eq_false, decide_false, Bool.false_eq_true, if_false] at hf ⊢
      rw [hf]
      exact .refl _
    · have h' := ih hes
      simp only [get?, erase, values, List.find?_cons, List.filter_cons, he, decide_false,
        not_false_eq_true, ne_eq, decide_true, if_true, List.map_cons] at h' ⊢
      exact List.perm_middle.trans (h'.cons e.2)

end OrderedMap

namespace Source

def Keyword.displaced {ε : Type} (ks : List (Keyword ε)) : List ε :=
  OrderedMap.displaced {} (ks.filterMap fun k => k.name.map (·, k.value))

namespace Binding

variable {ε : Type} {s : Signature} {m : OrderedMap String ε}

theorem slotOf_perm (unsure : Bool) (name : String) (hm : m.keys.Nodup) :
    (((slotOf s unsure name).run m).1.values ++ ((slotOf s unsure name).run m).2.values).Perm
        m.values ∧
      ((slotOf s unsure name).run m).2.keys.Nodup := by
  simp only [slotOf, bind, StateT.bind, StateT.run, get, getThe, MonadStateOf.get, StateT.get, pure]
  cases h : m.get? name with
  | some e =>
    have he := OrderedMap.values_erase_perm hm name
    rw [h] at he
    exact ⟨he, OrderedMap.keys_erase_nodup hm name⟩
  | none =>
    refine ⟨?_, hm⟩
    change (Slot.values
      (if !unsure && s.defaults.contains name then .default name else .unknown name) ++ m.values).Perm
        m.values
    split <;> exact .refl _

theorem mapM_slotOf_perm (unsure : Bool) (names : List String) (hm : m.keys.Nodup) :
    (((names.mapM (slotOf s unsure)).run m).1.flatMap Slot.values ++
        ((names.mapM (slotOf s unsure)).run m).2.values).Perm m.values ∧
      ((names.mapM (slotOf s unsure)).run m).2.keys.Nodup := by
  induction names generalizing m with
  | nil => exact ⟨.refl _, hm⟩
  | cons name names ih =>
    obtain ⟨hslot, hrest⟩ := slotOf_perm (s := s) unsure name hm
    obtain ⟨hslots, hleft⟩ := ih hrest
    rw [List.mapM_cons]
    refine ⟨?_, hleft⟩
    change (_ ++ List.flatMap Slot.values _ ++ _).Perm _
    rw [List.append_assoc]
    exact (hslots.append_left _).trans hslot

theorem positionalSlots_perm (unsure : Bool) (names : List String) (es : List ε)
    (hm : m.keys.Nodup) :
    (((positionalSlots s unsure names es).run m).1.flatMap Slot.values ++
        ((positionalSlots s unsure names es).run m).2.values).Perm
        (es.take names.length ++ m.values) ∧
      ((positionalSlots s unsure names es).run m).2.keys.Nodup := by
  induction names generalizing es m with
  | nil => exact ⟨.refl _, hm⟩
  | cons name names ih =>
    cases es with
    | nil =>
      obtain ⟨hslot, hrest⟩ := slotOf_perm (s := s) unsure name hm
      obtain ⟨hslots, hleft⟩ := ih [] hrest
      refine ⟨?_, hleft⟩
      change (_ ++ List.flatMap Slot.values _ ++ _).Perm _
      rw [List.take_nil, List.nil_append] at hslots ⊢
      rw [List.append_assoc]
      exact (hslots.append_left _).trans hslot
    | cons e es =>
      obtain ⟨hslots, hleft⟩ := ih es hm
      exact ⟨hslots.cons e, hleft⟩

theorem bindAll_perm (unsure unsure' : Bool) (leading : List ε) (hm : m.keys.Nodup) :
    (((bindAll s unsure unsure' leading).run m).1.flatMap Slot.values ++
        ((bindAll s unsure unsure' leading).run m).2.values).Perm
      (leading.take s.positional.length ++ m.values) := by
  obtain ⟨hp, hm⟩ := positionalSlots_perm (s := s) unsure s.positional leading hm
  obtain ⟨hk, -⟩ := mapM_slotOf_perm (s := s) unsure' s.keywordOnly hm
  have hunknown (names : List String) :
      (names.map Slot.unknown).flatMap (Slot.values (ε := ε)) = [] := by
    simp [Slot.values]
  change (List.flatMap Slot.values (_ ++ _ ++ _ ++ _) ++ _).Perm _
  rw [List.flatMap_append, List.flatMap_append, List.flatMap_append, hunknown, hunknown,
    List.append_nil, List.append_nil, List.append_assoc]
  exact (hk.append_left _).trans hp

theorem keywords_perm (keywords : List (Keyword ε)) :
    (((keywords.filterMap fun k => k.name.map (·, k.value)).map Prod.snd) ++
      keywords.filterMap fun k => if k.name.isNone then some k.value else none).Perm
      (keywords.map (·.value)) := by
  induction keywords with
  | nil => exact .refl _
  | cons k ks ih =>
    obtain ⟨name, value⟩ := k
    cases name with
    | none => exact List.perm_middle.trans (ih.cons value)
    | some name => exact ih.cons value

/-- Every argument goes into a slot or is spare, unless its name is given to another one after it. -/
theorem make_perm (s : Signature) (arguments : List (Passed ε)) (keywords : List (Keyword ε)) :
    ((make s arguments keywords).slots.flatMap Slot.values ++ (make s arguments keywords).spare ++
        Keyword.displaced keywords).Perm
      (arguments.map (·.value) ++ keywords.map (·.value)) := by
  classical
  have hnamed := OrderedMap.values_ofList_perm (keywords.filterMap fun k => k.name.map (·, k.value))
  have hkeywords := keywords_perm keywords
  have harguments : (arguments.takeWhile (!·.starred)).map (·.value) ++
      (arguments.dropWhile (!·.starred)).map (·.value) = arguments.map (·.value) := by
    rw [← List.map_append, List.takeWhile_append_dropWhile]
  rw [make_eq, ← harguments]
  generalize (arguments.takeWhile (!·.starred)).map (·.value) = leading
  generalize (arguments.dropWhile (!·.starred)).map (·.value) = trailing
  dsimp only
  generalize (keywords.filterMap fun k => if k.name.isNone then some k.value else none) = unpacked
    at hkeywords ⊢
  have hbound := bindAll_perm (s := s) (!trailing.isEmpty || !unpacked.isEmpty) (!unpacked.isEmpty)
    leading (OrderedMap.nodup_keys_ofList (keywords.filterMap fun k => k.name.map (·, k.value)))
  have hleading := List.take_append_drop s.positional.length leading
  rw [perm_iff_count] at hnamed hkeywords hbound ⊢
  intro a
  have hl := congrArg (List.count a) hleading
  have hn := hnamed a
  have hk := hkeywords a
  have hb := hbound a
  simp only [List.count_append, Keyword.displaced] at hl hn hk hb ⊢
  omega

end Binding

namespace Expr

def entered : Expr → List Expr
  | .lambda _ parameters _ => parameters.parts
  | e => e.children

theorem mem_children_of_entered {e c : Expr} (h : c ∈ e.entered) : c ∈ e.children := by
  cases e with
  | lambda line parameters body => exact List.mem_append_left _ h
  | _ => exact h

def calls (e : Expr) : List (CallSite Expr) :=
  e.site?.toList ++ e.entered.attach.flatMap fun ⟨c, _⟩ => calls c
termination_by sizeOf e
decreasing_by exact sizeOf_child e _ (mem_children_of_entered ‹_›)

theorem calls_eq (e : Expr) : e.calls = e.site?.toList ++ e.entered.flatMap calls := by
  rw [calls]
  simp

theorem calls_of_site?_eq_none {e : Expr} (h : e.site? = none) :
    e.calls = e.entered.flatMap calls := by
  rw [calls_eq, h, Option.toList_none, List.nil_append]

theorem calls_starred (line : Nat) (v : Expr) : (Expr.starred line v).calls = v.calls := by
  rw [calls_of_site?_eq_none rfl]
  exact List.append_nil _

theorem holds_of_mem_calls {e : Expr} {s : CallSite Expr} (h : s ∈ e.calls) : e.Holds (.call s) := by
  rw [calls_eq] at h
  obtain h | h := List.mem_append.mp h
  · cases e with
    | call t =>
      obtain rfl := List.mem_singleton.mp h
      exact .refl
    | _ => cases h
  · obtain ⟨c, hc, hs⟩ := List.mem_flatMap.mp h
    have hlt := sizeOf_child e c (mem_children_of_entered hc)
    exact .head (mem_children_of_entered hc) (holds_of_mem_calls hs)
termination_by sizeOf e
decreasing_by exact hlt

end Expr

theorem Expr.Absent.tally_calls {o : Origin} {e : Expr} (h : e.Absent o) : tally o e.calls = 0 := by
  refine List.count_eq_zero.mpr fun hm => ?_
  obtain ⟨s, hs, ho⟩ := List.mem_map.mp hm
  exact h s (holds_of_mem_calls hs) ho

section Stray

variable (signatures : OrderedMap String Signature) (className : Option String)

/-- Lowering an expression leads a part of it astray: the part is lost, or it is taken twice, or it is
taken though it does not run. -/
inductive Stray : Mode → Expr → Expr → Prop
  /-- Of what is called only the text is kept. -/
  | function (m : Mode) (s : CallSite Expr) : Stray m (.call s) s.function
  | displaced (m : Mode) {s : CallSite Expr} {g : Signature}
    (hs : s.signature? signatures className = some g) {e : { c : Expr // sizeOf c < sizeOf s }}
    (he : e ∈ Keyword.displaced s.named) : Stray m (.call s) e.1
  /-- Inside a chain both comparisons at an operand take it. -/
  | middle (line : Nat) (left : Expr) {rest : List (Comparand Expr)} {c : Comparand Expr}
    (hc : c ∈ rest.dropLast) : Stray .value (.compare line left rest) c.value
  | alone (line : Nat) (left : Expr) : Stray .value (.compare line left []) left
  /-- A lambda that is a part of something is passed over. -/
  | lambda (line : Nat) (parameters : Parameters Expr) (body : Expr) :
    Stray .part (.lambda line parameters body) (.lambda line parameters body)
  | body {m : Mode} (hm : m ≠ .part) (line : Nat) (parameters : Parameters Expr) (body : Expr) :
    Stray m (.lambda line parameters body) body
  | inner {m m' : Mode} {e c x : Expr} (hp : Descends signatures className m e m' c)
    (h : Stray m' c x) : Stray m e x

/-- Nothing astray holds a call from there. -/
def Tracked (o : Origin) (m : Mode) (e : Expr) : Prop :=
  ∀ x, Stray signatures className m e x → x.Absent o

end Stray

section Tracked

variable {signatures : OrderedMap String Signature} {className : Option String} {o : Origin}

theorem holds_displaced {s : CallSite Expr} {e : { c : Expr // sizeOf c < sizeOf s }}
    (h : e ∈ Keyword.displaced s.named) : (Expr.call s).Holds e.1 := by
  have hm := (OrderedMap.values_ofList_perm _).subset (List.mem_append_left _ h)
  obtain ⟨p, hp, rfl⟩ := List.mem_map.mp hm
  obtain ⟨k, hk, hkp⟩ := List.mem_filterMap.mp hp
  obtain ⟨name, -, rfl⟩ := Option.map_eq_some_iff.mp hkp
  exact CallSite.holds_named hk

theorem Stray.holds {m : Mode} {e x : Expr} (h : Stray signatures className m e x) : e.Holds x := by
  induction h with
  | function m s => exact Expr.holds_child List.mem_cons_self
  | displaced m hs he => exact holds_displaced he
  | middle line left hc =>
    refine Expr.holds_child (List.mem_cons_of_mem left (List.mem_map_of_mem ?_))
    exact (List.dropLast_sublist _).subset hc
  | alone line left => exact Expr.holds_child List.mem_cons_self
  | lambda line parameters body => exact .refl
  | body hm line parameters body => exact Expr.holds_child (List.mem_append_right _ List.mem_cons_self)
  | inner hp _ ih => exact hp.holds.trans ih

theorem Expr.Absent.tracked {e : Expr} (h : e.Absent o) (m : Mode) :
    Tracked signatures className o m e :=
  fun _ hx => h.of_holds hx.holds

theorem Tracked.inner {m m' : Mode} {e c : Expr} (h : Tracked signatures className o m e)
    (hp : Descends signatures className m e m' c) : Tracked signatures className o m' c :=
  fun x hx => h x (.inner hp hx)

/-- In a chain the operands at the ends are taken once. -/
theorem Expr.tally_comparisonSteps (left : Expr) {rest : List (Comparand Expr)}
    (hm : ∀ c ∈ rest.dropLast, c.value.Absent o) (hl : rest = [] → left.Absent o) :
    tally o ((comparisonSteps left rest).flatMap fun p => p.1.calls ++ p.2.2.calls) =
      tally o ((left :: rest.map (·.value)).flatMap calls) := by
  induction rest generalizing left with
  | nil =>
    have hz := (hl rfl).tally_calls
    simp [comparisonSteps, hz]
  | cons c rest ih =>
    cases rest with
    | nil => simp [comparisonSteps]
    | cons c' rest =>
      obtain ⟨hc, hm⟩ := List.forall_mem_cons.mp hm
      have hrest := ih c.value hm fun h => by cases h
      have hz := hc.tally_calls
      rw [comparisonSteps, List.flatMap_cons]
      simp only [tally_append, hrest, List.map_cons, List.flatMap_cons, hz]
      omega

namespace CallSite

theorem flatMap_passed {α : Type} {g : Expr → List α} (hg : ∀ line v, g (.starred line v) = g v)
    (s : CallSite Expr) : s.passed.flatMap (fun p => g p.value.1) = s.arguments.flatMap g := by
  rw [passed, List.flatMap_map]
  conv_rhs => rw [← List.attach_map_subtype_val s.arguments, List.flatMap_map]
  congr 1
  funext e
  obtain ⟨e, he⟩ := e
  cases e with
  | starred line v => exact (hg line v).symm
  | _ => rfl

theorem flatMap_named {α : Type} (g : Expr → List α) (s : CallSite Expr) :
    s.named.flatMap (fun k => g k.value.1) = (s.keywords.map (·.value)).flatMap g := by
  rw [named, List.flatMap_map, List.flatMap_map]
  conv_rhs => rw [← List.attach_map_subtype_val s.keywords, List.flatMap_map]

theorem tally_make (g : Expr → List (CallSite Expr)) (f : Signature) (s : CallSite Expr) :
    tally o ((Binding.make f s.passed s.named).slots.flatMap fun slot => slot.values.flatMap (g ·.1)) +
        tally o ((Binding.make f s.passed s.named).spare.flatMap (g ·.1)) +
        tally o ((Keyword.displaced s.named).flatMap (g ·.1)) =
      tally o (s.passed.flatMap (g ·.value.1)) + tally o (s.named.flatMap (g ·.value.1)) := by
  have hcount : tally o (_ : List (CallSite Expr)) = tally o _ :=
    (((Binding.make_perm f s.passed s.named).flatMap_right fun e => g e.1).map
      CallSite.origin).count_eq o
  simpa only [List.flatMap_append, tally_append, List.flatMap_assoc, List.flatMap_map] using hcount

end CallSite

theorem Tracked.tally_taken {m : Mode} {e : Expr} (h : Tracked signatures className o m e)
    (he : e.site? = none) : tally o ((e.taken m).flatMap Expr.calls) = tally o e.calls := by
  cases e with
  | call s => cases he
  | compare line left rest =>
    rw [Expr.calls_of_site?_eq_none rfl, Expr.taken]
    split
    · next hm =>
      subst hm
      have hsteps := Expr.tally_comparisonSteps left (fun c hc => h _ (.middle line left hc))
        fun hr => h _ (hr ▸ .alone line left)
      rw [List.flatMap_assoc]
      simp only [List.flatMap_cons, List.flatMap_nil, List.append_nil]
      exact hsteps
    · rfl
  | lambda line parameters body =>
    rw [Expr.taken]
    split
    · next hm =>
      subst hm
      exact ((h _ (.lambda line parameters body)).tally_calls).symm
    · next hm =>
      have hz := (h _ (.body hm line parameters body)).tally_calls
      rw [Expr.children, List.flatMap_append, tally_append, List.flatMap_singleton, hz,
        Expr.calls_of_site?_eq_none rfl]
      rfl
  | _ => rw [Expr.calls_of_site?_eq_none rfl]; rfl

theorem Tracked.tally_descents {m : Mode} {e : Expr} (h : Tracked signatures className o m e) :
    tally o ((e.descents signatures className m).flatMap fun p => p.2.calls) =
      tally o (e.entered.flatMap Expr.calls) := by
  obtain ⟨s, rfl⟩ | he := e.eq_call_or_site?_eq_none
  · have hparts : tally o ((Expr.call s).entered.flatMap Expr.calls) =
        tally o (s.passed.flatMap (·.value.1.calls)) + tally o (s.named.flatMap (·.value.1.calls)) := by
      have hz := (h _ (.function m s)).tally_calls
      change tally o (s.parts.flatMap Expr.calls) = _
      rw [CallSite.parts, List.flatMap_append, List.flatMap_cons, tally_append, tally_append, hz,
        Nat.zero_add, CallSite.flatMap_passed Expr.calls_starred, CallSite.flatMap_named Expr.calls]
    cases hs : s.signature? signatures className with
    | none => rw [CallSite.flatMap_descents_none hs, tally_append, hparts]
    | some g =>
      have hmake := CallSite.tally_make (o := o) Expr.calls g s
      have hz : tally o ((Keyword.displaced s.named).flatMap fun e => e.1.calls) = 0 :=
        tally_flatMap_eq_zero fun e he => (h _ (.displaced m hs he)).tally_calls
      rw [CallSite.flatMap_descents_some hs, tally_append, hparts, ← hmake, hz, Nat.add_zero]
  · rw [Expr.descents_of_site?_eq_none he, List.flatMap_map, ← Expr.calls_of_site?_eq_none he]
    exact h.tally_taken he

theorem Tracked.tally_charged {m : Mode} {e : Expr} (h : Tracked signatures className o m e) :
    tally o (e.charged signatures className m) = tally o e.calls := by
  have ih (p : Mode × Expr) (hp : p ∈ e.descents signatures className m) :
      tally o (p.2.charged signatures className p.1) = tally o p.2.calls := by
    have hd := Expr.descends_of_mem hp
    have := hd.sizeOf_lt
    exact (h.inner hd).tally_charged
  rw [Expr.charged_eq, Expr.calls_eq, tally_append, tally_append, tally_flatMap_congr ih,
    h.tally_descents]
termination_by sizeOf e

end Tracked

end Source

end CallTime

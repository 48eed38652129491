import CallTime.Proofs.CallSites
import Mathlib.Data.List.Perm.Basic

/-!
Where the arguments of a call go.

Arguments are told by their number in the call. Main statement: every parameter has its slot, every
argument is in one slot or in none, and what is in none is left for its calls, in the order surplus
arguments, arguments from a starred one on, arguments by name, unpacked mappings. A call is lowered just
if what its slots hold and the calls left over can be.
-/

namespace CallTime

namespace OrderedMap

variable {α β : Type} [DecidableEq α]

theorem get?_eq_none_iff {m : OrderedMap α β} {k : α} : m.get? k = none ↔ ∀ e ∈ m.entries, e.1 ≠ k := by
  simp [get?]

theorem erase_eq_self {m : OrderedMap α β} {k : α} (h : m.get? k = none) : m.erase k = m := by
  obtain ⟨es⟩ := m
  have hf : es.filter (·.1 ≠ k) = es :=
    List.filter_eq_self.mpr fun e he => decide_eq_true (get?_eq_none_iff.mp h e he)
  rw [erase, hf]

def without (m : OrderedMap α β) (ks : List α) : OrderedMap α β := ⟨m.entries.filter (·.1 ∉ ks)⟩

theorem without_nil (m : OrderedMap α β) : m.without [] = m := by
  obtain ⟨es⟩ := m
  simp [without]

theorem without_without (m : OrderedMap α β) (ks ks' : List α) :
    (m.without ks).without ks' = m.without (ks ++ ks') := by
  simp [without, List.filter_filter, Bool.and_comm]

theorem erase_without (m : OrderedMap α β) (k : α) (ks : List α) :
    (m.erase k).without ks = m.without (k :: ks) := by
  simp [without, erase, List.filter_filter, Bool.and_comm]

theorem get?_without_of_notMem (m : OrderedMap α β) {k : α} {ks : List α} (h : k ∉ ks) :
    (m.without ks).get? k = m.get? k := by
  induction ks generalizing m with
  | nil => rw [without_nil]
  | cons k' ks ih =>
    obtain ⟨hk, hks⟩ := not_or.mp (mt List.mem_cons.mpr h)
    rw [← erase_without, ih _ hks, get?_erase, if_neg (Ne.symm hk)]

theorem insertEntry_of_notMem {k : α} (v : β) {es : List (α × β)} (h : k ∉ es.map Prod.fst) :
    insertEntry k v es = es ++ [(k, v)] := by
  induction es with
  | nil => rfl
  | cons e es ih =>
    obtain ⟨hk, hes⟩ := not_or.mp (mt List.mem_cons.mpr h)
    rw [insertEntry, if_neg (Ne.symm hk), ih hes]
    rfl

theorem entries_ofList {es : List (α × β)} (h : (es.map Prod.fst).Nodup) : (ofList es).entries = es := by
  have hfold (m : OrderedMap α β) (hm : (m.entries.map Prod.fst ++ es.map Prod.fst).Nodup) :
      (es.foldl (fun m e => m.insert e.1 e.2) m).entries = m.entries ++ es := by
    clear h
    induction es generalizing m with
    | nil => simp
    | cons e es ih =>
      have hfresh : e.1 ∉ m.entries.map Prod.fst := fun hmem =>
        List.disjoint_of_nodup_append hm hmem List.mem_cons_self
      have hinsert : (m.insert e.1 e.2).entries = m.entries ++ [e] := insertEntry_of_notMem e.2 hfresh
      rw [List.foldl_cons, ih, hinsert, List.append_assoc]
      · rfl
      · simpa [hinsert] using hm
  exact hfold {} (by simpa using h)

def mapValues {γ : Type} (f : β → γ) (m : OrderedMap α β) : OrderedMap α γ :=
  ⟨m.entries.map fun e => (e.1, f e.2)⟩

section MapValues

variable {γ : Type} (f : β → γ) (m : OrderedMap α β)

theorem get?_mapValues (k : α) : (m.mapValues f).get? k = (m.get? k).map f := by
  simp [get?, mapValues, List.find?_map, Function.comp_def]

omit [DecidableEq α] in
theorem values_mapValues : (m.mapValues f).values = m.values.map f := by
  simp [values, mapValues]

theorem without_mapValues (ks : List α) : (m.mapValues f).without ks = (m.without ks).mapValues f := by
  simp [without, mapValues, List.filter_map, Function.comp_def]

theorem insertEntry_map (k : α) (v : β) (es : List (α × β)) :
    insertEntry k (f v) (es.map fun e => (e.1, f e.2)) =
      (insertEntry k v es).map fun e => (e.1, f e.2) := by
  induction es with
  | nil => rfl
  | cons e es ih => by_cases h : e.1 = k <;> simp [insertEntry, h, ih]

theorem ofList_map (es : List (α × β)) :
    ofList (es.map fun e => (e.1, f e.2)) = (ofList es).mapValues f := by
  have hfold (m : OrderedMap α β) : (es.map fun e => (e.1, f e.2)).foldl
      (fun m e => m.insert e.1 e.2) (m.mapValues f) =
      (es.foldl (fun m e => m.insert e.1 e.2) m).mapValues f := by
    induction es generalizing m with
    | nil => rfl
    | cons e es ih =>
      have hinsert : (m.mapValues f).insert e.1 (f e.2) = (m.insert e.1 e.2).mapValues f :=
        congrArg OrderedMap.mk (insertEntry_map f e.1 e.2 m.entries)
      rw [List.map_cons, List.foldl_cons, hinsert, ih]
      rfl
  exact hfold {}

end MapValues

end OrderedMap

namespace Source

namespace Binding

variable {ε : Type} {s : Signature}

def slotFor (s : Signature) (unsure : Bool) (named : OrderedMap String ε) (name : String) : Slot ε :=
  match named.get? name with
  | some e => .value e
  | none => if !unsure && s.defaults.contains name then .default name else .unknown name

theorem slotFor_congr {unsure : Bool} {m m' : OrderedMap String ε} {name : String}
    (h : m.get? name = m'.get? name) : slotFor s unsure m name = slotFor s unsure m' name := by
  rw [slotFor, slotFor, h]

theorem run_slotOf (unsure : Bool) (m : OrderedMap String ε) (name : String) :
    (slotOf s unsure name).run m = (slotFor s unsure m name, m.erase name) := by
  simp only [slotOf, slotFor, bind, StateT.bind, StateT.run, get, getThe, MonadStateOf.get, StateT.get,
    pure]
  cases h : m.get? name with
  | some e => rfl
  | none =>
    rw [OrderedMap.erase_eq_self h]
    rfl

/-- Parameters with names of their own do not take arguments from each other. -/
theorem run_mapM_slotOf (unsure : Bool) (m : OrderedMap String ε) {names : List String}
    (h : names.Nodup) :
    (names.mapM (slotOf s unsure)).run m = (names.map (slotFor s unsure m), m.without names) := by
  induction names generalizing m with
  | nil =>
    rw [OrderedMap.without_nil]
    rfl
  | cons name names ih =>
    obtain ⟨hname, hnames⟩ := List.nodup_cons.mp h
    have hslots : names.map (slotFor s unsure (m.erase name)) = names.map (slotFor s unsure m) := by
      refine List.map_congr_left fun x hx => slotFor_congr ?_
      have hne : name ≠ x := fun hn => hname (hn ▸ hx)
      rw [OrderedMap.get?_erase, if_neg hne]
    rw [List.mapM_cons, StateT.run_bind, run_slotOf]
    change (_ :: ((names.mapM (slotOf s unsure)).run (m.erase name)).1,
      ((names.mapM (slotOf s unsure)).run (m.erase name)).2) = _
    rw [ih _ hnames, hslots, OrderedMap.erase_without]
    rfl

theorem run_positionalSlots (unsure : Bool) (m : OrderedMap String ε) {names : List String}
    (h : names.Nodup) (es : List ε) :
    (positionalSlots s unsure names es).run m =
      (names.mapIdx fun i name => (es[i]?).elim (slotFor s unsure m name) .value,
        m.without (names.drop es.length)) := by
  induction names generalizing m es with
  | nil =>
    rw [List.drop_nil, OrderedMap.without_nil]
    rfl
  | cons name names ih =>
    obtain ⟨hname, hnames⟩ := List.nodup_cons.mp h
    cases es with
    | cons e es =>
      rw [positionalSlots, StateT.run_bind, ih m hnames es, List.mapIdx_cons]
      rfl
    | nil =>
      have hslots : (names.mapIdx fun i x => (([] : List ε)[i]?).elim
          (slotFor s unsure (m.erase name) x) .value) = names.map (slotFor s unsure m) := by
        refine List.ext_getElem? fun i => ?_
        rw [List.getElem?_mapIdx, List.getElem?_map]
        refine Option.map_congr fun x hx => slotFor_congr ?_
        have hne : name ≠ x := fun hn => hname (hn ▸ List.mem_of_getElem? hx)
        rw [OrderedMap.get?_erase, if_neg hne]
      have hall : ((name :: names).mapIdx fun i x => (([] : List ε)[i]?).elim
          (slotFor s unsure m x) .value) = (name :: names).map (slotFor s unsure m) := by
        refine List.ext_getElem? fun i => ?_
        rw [List.getElem?_mapIdx, List.getElem?_map]
        rfl
      rw [positionalSlots, StateT.run_bind, run_slotOf, hall]
      change (_ :: ((positionalSlots s unsure names []).run (m.erase name)).1,
        ((positionalSlots s unsure names []).run (m.erase name)).2) = _
      rw [ih _ hnames, hslots, List.length_nil, List.drop_zero, List.drop_zero, OrderedMap.erase_without]
      rfl

def leading (arguments : List (Passed ε)) : List ε := (arguments.takeWhile (!·.starred)).map (·.value)

def trailing (arguments : List (Passed ε)) : List ε := (arguments.dropWhile (!·.starred)).map (·.value)

def named (keywords : List (Keyword ε)) : OrderedMap String ε :=
  OrderedMap.ofList (keywords.filterMap fun k => k.name.map (·, k.value))

def unpacked (keywords : List (Keyword ε)) : List ε :=
  keywords.filterMap fun k => if k.name.isNone then some k.value else none

theorem make_of_nodup (h : s.parameters.Nodup) (arguments : List (Passed ε))
    (keywords : List (Keyword ε)) :
    make s arguments keywords = {
      slots := (s.positional.mapIdx fun i name => ((leading arguments)[i]?).elim
          (slotFor s (!(trailing arguments).isEmpty || !(unpacked keywords).isEmpty) (named keywords) name)
          .value) ++
        s.rest.toList.map .unknown ++
        s.keywordOnly.map (slotFor s (!(unpacked keywords).isEmpty) (named keywords)) ++
        s.keywordRest.toList.map .unknown
      spare := (leading arguments).drop s.positional.length ++ trailing arguments ++
        ((named keywords).without
          (s.positional.drop (leading arguments).length ++ s.keywordOnly)).values ++
        unpacked keywords } := by
  have hnodup : (s.positional ++ s.rest.toList ++ s.keywordOnly).Nodup := (List.nodup_append.mp h).1
  have hpositional : s.positional.Nodup := (List.nodup_append.mp (List.nodup_append.mp hnodup).1).1
  have hkeywordOnly : s.keywordOnly.Nodup := (List.nodup_append.mp hnodup).2.1
  have hslots (unsure : Bool) : s.keywordOnly.map (slotFor s unsure
      ((named keywords).without (s.positional.drop (leading arguments).length))) =
      s.keywordOnly.map (slotFor s unsure (named keywords)) := by
    refine List.map_congr_left fun x hx => slotFor_congr (OrderedMap.get?_without_of_notMem _ fun hm => ?_)
    exact List.disjoint_of_nodup_append hnodup (List.mem_append_left _ (List.mem_of_mem_drop hm)) hx
  rw [make_eq]
  refine congrArg₂ Binding.mk ?_ ?_
  · change ((positionalSlots s _ s.positional (leading arguments)).run (named keywords)).1 ++ _ ++
      ((s.keywordOnly.mapM (slotOf s _)).run ((positionalSlots s _ s.positional
        (leading arguments)).run (named keywords)).2).1 ++ _ = _
    rw [run_positionalSlots _ _ hpositional, run_mapM_slotOf _ _ hkeywordOnly, hslots]
    rfl
  · change _ ++ _ ++ ((s.keywordOnly.mapM (slotOf s _)).run ((positionalSlots s _ s.positional
      (leading arguments)).run (named keywords)).2).2.values ++ _ = _
    rw [run_positionalSlots _ _ hpositional, run_mapM_slotOf _ _ hkeywordOnly, OrderedMap.without_without]
    rfl

end Binding

section Map

variable {ε ε' : Type} (f : ε → ε')

def Passed.map (p : Passed ε) : Passed ε' := ⟨f p.value, p.starred⟩

def Keyword.map (k : Keyword ε) : Keyword ε' := ⟨k.name, f k.value⟩

def Slot.map : Slot ε → Slot ε'
  | .value e => .value (f e)
  | .default name => .default name
  | .unknown name => .unknown name

namespace Binding

theorem leading_map (arguments : List (Passed ε)) :
    leading (arguments.map (Passed.map f)) = (leading arguments).map f := by
  simp [leading, List.takeWhile_map, Passed.map, Function.comp_def]

theorem trailing_map (arguments : List (Passed ε)) :
    trailing (arguments.map (Passed.map f)) = (trailing arguments).map f := by
  simp [trailing, List.dropWhile_map, Passed.map, Function.comp_def]

theorem unpacked_map (keywords : List (Keyword ε)) :
    unpacked (keywords.map (Keyword.map f)) = (unpacked keywords).map f := by
  simp only [unpacked, List.filterMap_map, List.map_filterMap]
  congr 1
  funext k
  cases h : k.name <;> simp [Keyword.map, h]

theorem named_map (keywords : List (Keyword ε)) :
    named (keywords.map (Keyword.map f)) = (named keywords).mapValues f := by
  rw [named, named, ← OrderedMap.ofList_map, List.filterMap_map, List.map_filterMap]
  congr 2
  funext k
  simp [Keyword.map, Function.comp_def]

theorem slotFor_map (s : Signature) (unsure : Bool) (m : OrderedMap String ε) (name : String) :
    slotFor s unsure (m.mapValues f) name = (slotFor s unsure m name).map f := by
  rw [slotFor, slotFor, OrderedMap.get?_mapValues]
  cases m.get? name with
  | some e => rfl
  | none =>
    simp only [Option.map_none]
    split <;> rfl

theorem make_map {s : Signature} (h : s.parameters.Nodup) (arguments : List (Passed ε))
    (keywords : List (Keyword ε)) :
    make s (arguments.map (Passed.map f)) (keywords.map (Keyword.map f)) =
      { slots := (make s arguments keywords).slots.map (Slot.map f)
        spare := (make s arguments keywords).spare.map f } := by
  rw [make_of_nodup h, make_of_nodup h, leading_map, trailing_map, unpacked_map, named_map]
  refine congrArg₂ Binding.mk ?_ ?_
  · have hunknown (name : String) : (Slot.unknown name).map f = .unknown name := rfl
    have hslotFor (unsure : Bool) : slotFor s unsure ((named keywords).mapValues f) =
        fun name => (slotFor s unsure (named keywords) name).map f := funext (slotFor_map f s unsure _)
    simp only [List.map_append, List.map_map, List.isEmpty_map, Function.comp_def, hslotFor, hunknown]
    congr 3
    refine List.ext_getElem? fun i => ?_
    simp only [List.getElem?_map, List.getElem?_mapIdx, Option.map_map]
    refine Option.map_congr fun name _ => ?_
    cases (leading arguments)[i]? <;> simp [Slot.map]
  · simp only [List.map_append, List.map_drop, List.length_map, OrderedMap.without_mapValues,
      OrderedMap.values_mapValues]

end Binding

end Map

theorem eq_filter_of_sublist {α : Type} [DecidableEq α] {taken left all : List α} (hn : all.Nodup)
    (hs : left.Sublist all) (hp : (taken ++ left).Perm all) : left = all.filter (· ∉ taken) := by
  have hnodup : (taken ++ left).Nodup := hp.nodup_iff.mpr hn
  have hmem (a : α) : a ∈ left ↔ a ∈ all.filter (· ∉ taken) := by
    rw [List.mem_filter, ← hp.mem_iff, List.mem_append, decide_eq_true_iff]
    have hd (ht : a ∈ taken) (hl : a ∈ left) : False := List.disjoint_of_nodup_append hnodup ht hl
    tauto
  have hself : left.filter (· ∉ taken) = left :=
    List.filter_eq_self.mpr fun a ha => (List.mem_filter.mp ((hmem a).mp ha)).2
  have hsub : left.Sublist (all.filter (· ∉ taken)) := hself ▸ hs.filter _
  have hperm := (List.perm_ext_iff_of_nodup (hn.sublist hs) (hn.filter _)).mpr hmem
  exact hsub.eq_of_length hperm.length_eq

namespace Binding

variable {ε : Type} {s : Signature} {arguments : List (Passed ε)} {keywords : List (Keyword ε)}

def inOrder (arguments : List (Passed ε)) (keywords : List (Keyword ε)) : List ε :=
  leading arguments ++ trailing arguments ++
    (keywords.filterMap fun k => k.name.map (·, k.value)).map Prod.snd ++ unpacked keywords

theorem inOrder_perm : (inOrder arguments keywords).Perm
    (arguments.map (·.value) ++ keywords.map (·.value)) := by
  have harguments : leading arguments ++ trailing arguments = arguments.map (·.value) := by
    rw [leading, trailing, ← List.map_append, List.takeWhile_append_dropWhile]
  rw [inOrder, harguments, List.append_assoc]
  exact (keywords_perm keywords).append_left _

theorem entries_named (h : (keywords.filterMap (·.name)).Nodup) :
    (named keywords).entries = keywords.filterMap fun k => k.name.map (·, k.value) := by
  refine OrderedMap.entries_ofList ?_
  rw [List.map_filterMap]
  convert h using 2 with k
  cases k.name <;> rfl

theorem displaced_eq_nil (h : (keywords.filterMap (·.name)).Nodup) : Keyword.displaced keywords = [] := by
  have hp := OrderedMap.values_ofList_perm (keywords.filterMap fun k => k.name.map (·, k.value))
  have hv : (named keywords).values = _ := congrArg (List.map Prod.snd) (entries_named h)
  have hlength := hp.length_eq
  rw [named] at hv
  rw [hv, List.length_append] at hlength
  refine List.eq_nil_of_length_eq_zero ?_
  rw [Keyword.displaced]
  omega

theorem spare_sublist (h : s.parameters.Nodup) (hk : (keywords.filterMap (·.name)).Nodup) :
    (make s arguments keywords).spare.Sublist (inOrder arguments keywords) := by
  rw [make_of_nodup h]
  refine ((List.Sublist.append (List.drop_sublist _ _) (.refl _)).append ?_).append (.refl _)
  rw [OrderedMap.values, OrderedMap.without, entries_named hk]
  exact List.filter_sublist.map Prod.snd

/-- Each argument goes into one slot, or into none and is left over in its place. -/
theorem slots_spare (h : s.parameters.Nodup) (hk : (keywords.filterMap (·.name)).Nodup)
    [DecidableEq ε] (ha : (arguments.map (·.value) ++ keywords.map (·.value)).Nodup) :
    let taken := (make s arguments keywords).slots.flatMap Slot.values
    taken.Nodup ∧ (∀ e ∈ taken, e ∈ arguments.map (·.value) ++ keywords.map (·.value)) ∧
      (make s arguments keywords).spare = (inOrder arguments keywords).filter (· ∉ taken) := by
  have hperm := make_perm s arguments keywords
  rw [displaced_eq_nil hk, List.append_nil] at hperm
  refine ⟨(List.nodup_append.mp (hperm.nodup_iff.mpr ha)).1, fun e he => ?_, ?_⟩
  · exact hperm.subset (List.mem_append_left _ he)
  · exact eq_filter_of_sublist (inOrder_perm.nodup_iff.mpr ha) (spare_sublist h hk)
      (hperm.trans inOrder_perm.symm)

end Binding

def Slot.IsFor {ε : Type} (name : String) : Slot ε → Prop
  | .value _ => True
  | .default n | .unknown n => n = name

namespace Binding

variable {ε : Type} {s : Signature}

theorem isFor_slotFor (unsure : Bool) (m : OrderedMap String ε) (name : String) :
    (slotFor s unsure m name).IsFor name := by
  unfold slotFor
  cases m.get? name with
  | some e => trivial
  | none =>
    dsimp only
    split <;> rfl

theorem forall₂_mapIdx {α β : Type} {R : α → β → Prop} {f : Nat → α → β} (h : ∀ i a, R a (f i a))
    (as : List α) : List.Forall₂ R as (as.mapIdx f) := by
  induction as generalizing f with
  | nil => exact .nil
  | cons a as ih =>
    rw [List.mapIdx_cons]
    exact .cons (h 0 a) (ih fun i b => h (i + 1) b)

theorem slots_isFor (h : s.parameters.Nodup) (arguments : List (Passed ε)) (keywords : List (Keyword ε)) :
    List.Forall₂ Slot.IsFor s.parameters (make s arguments keywords).slots := by
  have hunknown (names : List String) :
      List.Forall₂ (Slot.IsFor (ε := ε)) names (names.map .unknown) :=
    List.forall₂_map_right_iff.mpr (List.forall₂_same.mpr fun _ _ => rfl)
  rw [make_of_nodup h, Signature.parameters]
  refine List.rel_append (List.rel_append (List.rel_append (forall₂_mapIdx (fun i name => ?_) _)
    (hunknown _)) ?_) (hunknown _)
  · cases (leading arguments)[i]? with
    | none => exact isFor_slotFor _ _ _
    | some e => trivial
  · exact List.forall₂_map_right_iff.mpr (List.forall₂_same.mpr fun _ _ => isFor_slotFor _ _ _)

end Binding

def Expr.ownCalls : Expr → List (CallSite Expr)
  | .call site => [site]
  | e => e.innerCalls

theorem spareCalls_map {n : Nat} (e : { c : Expr // sizeOf c < n }) :
    (spareCalls e).map Subtype.val = e.1.ownCalls := by
  obtain ⟨e, h⟩ := e
  cases e with
  | call site => rfl
  | _ => exact (List.map_map ..).trans (List.attach_map_subtype_val _)

namespace CallSite

/-- The arguments of a call without their stars: the positional ones, then those by name. -/
def given (s : CallSite Expr) : List Expr :=
  s.passed.map (·.value.1) ++ s.named.map (·.value.1)

def passedNumbers (s : CallSite Expr) : List (Passed Nat) :=
  s.passed.zipIdx.map fun p => ⟨p.2, p.1.starred⟩

def namedNumbers (s : CallSite Expr) : List (Keyword Nat) :=
  (s.named.zipIdx s.passed.length).map fun k => ⟨k.1.name, k.2⟩

def layout (s : CallSite Expr) (g : Signature) : Binding Nat :=
  Binding.make g s.passedNumbers s.namedNumbers

def callsAt (s : CallSite Expr) (i : Nat) : List (CallSite Expr) := (s.given[i]?).toList.flatMap Expr.ownCalls

inductive Fills (signatures : OrderedMap String Signature) (level : Nat) (scope : Scope) (g : Signature)
    (s : CallSite Expr) : Slot Nat → Draft → Prop
  | value {i : Nat} {e : Expr} {d : Draft} (he : s.given[i]? = some e)
    (hd : lowerArgument signatures level scope e = .ok d) : Fills signatures level scope g s (.value i) d
  /-- A default value is lowered outside of all functions. -/
  | default {name : String} {below : Nat} {e : Expr} {d : Draft} (hl : level = below + 1)
    (he : g.defaults.get? name = some e) (hd : lowerArgument signatures below {} e = .ok d) :
    Fills signatures level scope g s (.default name) d
  | unknown (name : String) :
    Fills signatures level scope g s (.unknown name) (.reference none ("<" ++ name ++ ">") none)

section Numbers

variable (s : CallSite Expr)

theorem values_numbers : s.passedNumbers.map (·.value) ++ s.namedNumbers.map (·.value) =
    List.range s.given.length := by
  have hp : s.passedNumbers.map (·.value) = List.range' 0 s.passed.length := by
    rw [passedNumbers, List.map_map, ← List.zipIdx_map_snd]
    rfl
  have hn : s.namedNumbers.map (·.value) = List.range' s.passed.length s.named.length := by
    rw [namedNumbers, List.map_map, ← List.zipIdx_map_snd]
    rfl
  rw [hp, hn, given, List.length_append, List.length_map, List.length_map, List.range_eq_range',
    ← List.range'_append_1, Nat.zero_add]

theorem names_namedNumbers : s.namedNumbers.filterMap (·.name) = s.keywords.filterMap (·.name) := by
  have hnamed : s.namedNumbers.map (·.name) = s.keywords.map (·.name) := by
    rw [namedNumbers, List.map_map]
    change (s.named.zipIdx s.passed.length).map ((·.name) ∘ Prod.fst) = _
    rw [← List.map_map, List.zipIdx_map_fst, named, List.map_map]
    conv_rhs => rw [← List.attach_map_subtype_val s.keywords, List.map_map]
    rfl
  have hid {ε : Type} (ks : List (Keyword ε)) : ks.filterMap (·.name) = (ks.map (·.name)).filterMap id := by
    rw [List.filterMap_map]
    rfl
  rw [hid, hid, hnamed]

/-- The positional arguments with their numbers. -/
def countedPassed : List (Passed (Nat × { c : Expr // sizeOf c < sizeOf s })) :=
  s.passed.zipIdx.map fun p => ⟨(p.2, p.1.value), p.1.starred⟩

def countedNamed : List (Keyword (Nat × { c : Expr // sizeOf c < sizeOf s })) :=
  (s.named.zipIdx s.passed.length).map fun k => ⟨k.1.name, (k.2, k.1.value)⟩

def counted (g : Signature) : Binding (Nat × { c : Expr // sizeOf c < sizeOf s }) :=
  Binding.make g s.countedPassed s.countedNamed

variable {s} {g : Signature}

theorem layout_eq (h : g.parameters.Nodup) :
    s.layout g = ⟨(s.counted g).slots.map (Slot.map Prod.fst), (s.counted g).spare.map Prod.fst⟩ := by
  rw [counted, ← Binding.make_map _ h, countedPassed, countedNamed, List.map_map, List.map_map]
  rfl

theorem make_eq_counted (h : g.parameters.Nodup) : Binding.make g s.passed s.named =
    ⟨(s.counted g).slots.map (Slot.map Prod.snd), (s.counted g).spare.map Prod.snd⟩ := by
  have hp : s.countedPassed.map (Passed.map Prod.snd) = s.passed := by
    rw [countedPassed, List.map_map]
    exact List.zipIdx_map_fst 0 s.passed
  have hn : s.countedNamed.map (Keyword.map Prod.snd) = s.named := by
    rw [countedNamed, List.map_map]
    exact List.zipIdx_map_fst s.passed.length s.named
  rw [counted, ← Binding.make_map _ h, hp, hn]

theorem counted_from :
    (∀ slot ∈ (s.counted g).slots, slot.From g fun a => s.given[a.1]? = some a.2.1) ∧
      ∀ a ∈ (s.counted g).spare, s.given[a.1]? = some a.2.1 := by
  refine Binding.make_from (fun p hp => ?_) fun k hk => ?_
  · obtain ⟨⟨q, i⟩, hq, rfl⟩ := List.mem_map.mp hp
    have hi := List.mk_mem_zipIdx_iff_getElem?.mp hq
    have hlt : i < (s.passed.map (·.value.1)).length := by
      rw [List.length_map]
      exact (List.getElem?_eq_some_iff.mp hi).1
    rw [given, List.getElem?_append_left hlt, List.getElem?_map, hi]
    rfl
  · obtain ⟨⟨q, i⟩, hq, rfl⟩ := List.mem_map.mp hk
    obtain ⟨hle, hi⟩ := List.mk_mem_zipIdx_iff_le_and_getElem?_sub.mp hq
    rw [given, List.getElem?_append_right (by simpa using hle), List.getElem?_map, List.length_map, hi]
    rfl

end Numbers

section Lowering

variable {s : CallSite Expr} {g : Signature} {signatures : OrderedMap String Signature} {level : Nat}
  {scope : Scope}

theorem forall₂_congr {α β : Type} {R S : α → β → Prop} {as : List α} {bs : List β}
    (h : ∀ a ∈ as, ∀ b, R a b ↔ S a b) : List.Forall₂ R as bs ↔ List.Forall₂ S as bs := by
  induction as generalizing bs with
  | nil => simp
  | cons a as ih =>
    obtain ⟨ha, has⟩ := List.forall_mem_cons.mp h
    cases bs with
    | nil => simp
    | cons b bs => simp only [List.forall₂_cons, ha, ih has]

theorem mapM_eq_ok_iff {α β : Type} {f : α → Except Fault β} {as : List α} {bs : List β} :
    as.mapM f = .ok bs ↔ List.Forall₂ (fun a b => f a = .ok b) as bs := by
  refine ⟨forall₂_of_mapM, fun h => ?_⟩
  rw [mapM_forall₂ (g := .ok) h]
  exact List.mapM_pure.trans (congrArg _ (List.map_id bs))

def lowerSlot (signatures : OrderedMap String Signature) (level : Nat) (scope : Scope) (g : Signature) :
    Slot { c : Expr // sizeOf c < sizeOf s } → Except Fault Draft
  | .value e => lowerArgument signatures level scope e.1
  | .unknown name => pure (unknownDraft name)
  | .default name => match level, g.defaults.get? name with
    | level + 1, some e => lowerArgument signatures level {} e
    | _, _ => throw .endless

theorem lowerSlot_eq_ok_iff {slot : Slot (Nat × { c : Expr // sizeOf c < sizeOf s })}
    (h : slot.From g fun a => s.given[a.1]? = some a.2.1) {d : Draft} :
    lowerSlot signatures level scope g (slot.map Prod.snd) = .ok d ↔
      s.Fills signatures level scope g (slot.map Prod.fst) d := by
  cases slot with
  | value a =>
    refine ⟨fun hd => .value h hd, fun hd => ?_⟩
    obtain ⟨he, hd⟩ | _ | _ := hd
    obtain rfl := Option.some.inj (he.symm.trans h)
    exact hd
  | unknown name =>
    refine ⟨fun hd => ?_, fun hd => ?_⟩
    · cases hd
      exact .unknown name
    · cases hd
      rfl
  | default name =>
    obtain ⟨e, he⟩ := OrderedMap.get?_of_contains h
    cases level with
    | zero =>
      refine ⟨fun hd => ?_, fun hd => ?_⟩
      · cases hd
      · obtain _ | ⟨hl, _, _⟩ | _ := hd
        cases hl
    | succ level =>
      have hslot : lowerSlot signatures (level + 1) scope g
          (Slot.default name : Slot { c : Expr // sizeOf c < sizeOf s }) =
          lowerArgument signatures level {} e := by
        simp only [lowerSlot, he]
      change lowerSlot signatures (level + 1) scope g (.default name) = .ok d ↔ _
      rw [hslot]
      refine ⟨fun hd => .default rfl he hd, fun hd => ?_⟩
      obtain _ | ⟨hl, he', hd⟩ | _ := hd
      cases hl
      obtain rfl := Option.some.inj (he'.symm.trans he)
      exact hd

theorem spare_calls (h : g.parameters.Nodup) :
    ((Binding.make g s.passed s.named).spare.flatMap spareCalls).map Subtype.val =
      (s.layout g).spare.flatMap s.callsAt := by
  rw [make_eq_counted h, layout_eq h, List.map_flatMap, List.flatMap_map, List.flatMap_map]
  refine List.flatMap_congr fun a ha => ?_
  rw [spareCalls_map, callsAt, counted_from.2 a ha, Option.toList_some, List.flatMap_singleton]

/-- A resolved call is lowered just if what its slots hold and the calls left over are. -/
theorem lowerCall_eq_ok_iff (h : g.parameters.Nodup) {key : String}
    (hkey : targetKey? signatures scope s.function = some key) (hg : signatures.get? key = some g)
    {d : Draft} :
    lowerCall signatures level scope s = .ok d ↔ ∃ bound tail,
      List.Forall₂ (s.Fills signatures level scope g) (s.layout g).slots bound ∧
      List.Forall₂ (fun c d => lowerCall signatures level scope c = .ok d)
        ((s.layout g).spare.flatMap s.callsAt) tail ∧
      d = .call (some s.line) (some (calleeText s.function)) (bound ++ tail) (some key) := by
  have hbound (bound : List Draft) :
      List.Forall₂ (fun slot d => lowerSlot signatures level scope g slot = .ok d)
        (Binding.make g s.passed s.named).slots bound ↔
      List.Forall₂ (s.Fills signatures level scope g) (s.layout g).slots bound := by
    rw [make_eq_counted h, layout_eq h, List.forall₂_map_left_iff, List.forall₂_map_left_iff]
    exact forall₂_congr fun slot hslot d => lowerSlot_eq_ok_iff (counted_from.1 slot hslot)
  have htail (tail : List Draft) :
      List.Forall₂ (fun c d => lowerCall signatures level scope c.1 = .ok d)
        ((Binding.make g s.passed s.named).spare.flatMap spareCalls) tail ↔
      List.Forall₂ (fun c d => lowerCall signatures level scope c = .ok d)
        ((s.layout g).spare.flatMap s.callsAt) tail := by
    rw [← spare_calls h, List.forall₂_map_left_iff]
  rw [lowerCall, hkey, Option.bind_some, hg]
  change (do
    let bound ← (Binding.make g s.passed s.named).slots.mapM (lowerSlot signatures level scope g)
    let tail ← ((Binding.make g s.passed s.named).spare.flatMap spareCalls).mapM
      fun c : { c : CallSite Expr // sizeOf c < sizeOf s } => lowerCall signatures level scope c.1
    pure (Draft.call (some s.line) (some (calleeText s.function)) (bound ++ tail) (some key))) = _ ↔ _
  constructor
  · intro hd
    obtain ⟨bound, hb, hd⟩ := ok_of_bind hd
    obtain ⟨tail, ht, hd⟩ := ok_of_bind hd
    cases hd
    exact ⟨bound, tail, (hbound bound).mp (forall₂_of_mapM hb), (htail tail).mp (forall₂_of_mapM ht), rfl⟩
  · rintro ⟨bound, tail, hb, ht, rfl⟩
    rw [mapM_eq_ok_iff.mpr ((hbound bound).mpr hb), mapM_eq_ok_iff.mpr ((htail tail).mpr ht)]
    rfl

/-- The arguments by number: those before a starred one, those from it on, those by name and unpacked
mappings, each in the order they are written. -/
def inOrder (s : CallSite Expr) : List Nat := Binding.inOrder s.passedNumbers s.namedNumbers

/-- With parameters and arguments by name that have names of their own, every parameter has its slot and
every argument is in one slot or in none. Those in none follow the slots with their calls, in order. -/
theorem arguments_placed (s : CallSite Expr) (hs : (s.keywords.filterMap (·.name)).Nodup)
    (g : Signature) (hg : g.parameters.Nodup) :
    List.Forall₂ Slot.IsFor g.parameters (s.layout g).slots ∧
    ((s.layout g).slots.flatMap Slot.values).Nodup ∧
    s.inOrder.Perm (List.range s.given.length) ∧
    (∀ i ∈ (s.layout g).slots.flatMap Slot.values, i ∈ s.inOrder) ∧
    (s.layout g).spare = s.inOrder.filter (· ∉ (s.layout g).slots.flatMap Slot.values) ∧
    ∀ signatures level scope key, targetKey? signatures scope s.function = some key →
      signatures.get? key = some g → ∀ d,
        (lowerCall signatures level scope s = .ok d ↔ ∃ bound tail,
          List.Forall₂ (s.Fills signatures level scope g) (s.layout g).slots bound ∧
          List.Forall₂ (fun c d => lowerCall signatures level scope c = .ok d)
            ((s.layout g).spare.flatMap s.callsAt) tail ∧
          d = .call (some s.line) (some (calleeText s.function)) (bound ++ tail) (some key)) := by
  have hnames : (s.namedNumbers.filterMap (·.name)).Nodup := by
    rw [names_namedNumbers]
    exact hs
  have hnumbers : (s.passedNumbers.map (·.value) ++ s.namedNumbers.map (·.value)).Nodup := by
    rw [values_numbers]
    exact List.nodup_range
  have hperm : s.inOrder.Perm (List.range s.given.length) := by
    rw [← values_numbers]
    exact Binding.inOrder_perm
  obtain ⟨hnodup, hmem, hspare⟩ := Binding.slots_spare hg hnames hnumbers
  refine ⟨Binding.slots_isFor hg _ _, hnodup, hperm, fun i hi => ?_, hspare, ?_⟩
  · exact Binding.inOrder_perm.mem_iff.mpr (hmem i hi)
  · intro signatures level scope key hkey hget d
    exact lowerCall_eq_ok_iff hg hkey hget

end Lowering

/-- `relay(first, second=0, *rest, mode, **extra)` -/
def relay : Signature where
  key := "relay"
  name := "relay"
  className := none
  line := 1
  body := []
  positional := ["first", "second"]
  rest := some "rest"
  keywordOnly := ["mode"]
  keywordRest := some "extra"
  defaults := { entries := [("second", .constant 1 (.int 0) {})] }

def bare (name : String) : Expr := .call ⟨2, .name 2 name .load, [], []⟩

/-- `relay(start(), *items(), last(), mode=pick(), trace=note(), **options())` -/
def relayCall : CallSite Expr :=
  ⟨2, .name 2 "relay" .load, [bare "start", .starred 2 (bare "items"), bare "last"],
    [⟨some "mode", bare "pick"⟩, ⟨some "trace", bare "note"⟩, ⟨none, bare "options"⟩]⟩

theorem relayCall_placed :
    (relayCall.layout relay).slots.flatMap Slot.values = [0, 3] ∧
      (relayCall.layout relay).spare = [1, 2, 4, 5] := by
  have hslots : (relayCall.layout relay).slots.flatMap Slot.values = [0, 3] := by decide
  obtain ⟨-, -, -, -, hspare, -⟩ := arguments_placed relayCall (by decide) relay (by decide)
  refine ⟨hslots, hspare.trans ?_⟩
  rw [hslots]
  decide

/-- `dial(level)` -/
def dial : Signature where
  key := "dial"
  name := "dial"
  className := none
  line := 1
  body := []
  positional := ["level"]
  rest := none
  keywordOnly := []
  keywordRest := none
  defaults := {}

/-- `~n` -/
def inverted (n : Int) : Expr := .unary 2 .invert (.constant 2 (.int n) {})

/-- `dial(~n)` -/
def invertedCall (n : Int) : CallSite Expr := ⟨2, .name 2 "dial" .load, [inverted n], []⟩

theorem text_inverted {n : Int} (hn : isLong n = true) :
    (inverted n).text = .error .wrongValue := by
  have hconstant : Expr.constantText false (.int n) = .error .wrongValue := by
    change decimalText n = _
    rw [decimalText, if_pos hn]
  have hone : (Expr.constant 2 (.int n) {}).size = 1 := by
    rw [Expr.size]
    rfl
  have hsize : (inverted n).size = 2 := by
    rw [inverted, Expr.size]
    simp [Expr.children, hone]
  rw [Expr.text, hsize, inverted]
  simp only [Expr.textAt, hconstant]
  rfl

theorem lowerArgument_inverted {n : Int} (hn : isLong n = true)
    (signatures : OrderedMap String Signature) (level : Nat) (scope : Scope) :
    lowerArgument signatures level scope (inverted n) = .error .wrongValue := by
  have hcalls : (inverted n).innerCalls = [] := by
    rw [Expr.innerCalls_eq, inverted]
    change (Expr.constant 2 (.int n) {}).innerCalls ++ [] = []
    rw [Expr.innerCalls_eq]
    rfl
  have hexpr : lowerExpr signatures level scope (inverted n) = .ok none := by
    rw [inverted, lowerExpr.eq_def]
    dsimp only
    rw [lowerNested, ← inverted, List.attach_eq_nil_iff.mpr hcalls]
    rfl
  rw [lowerArgument, hexpr]
  change (do return Draft.reference _ (← (inverted n).text) none) = _
  rw [text_inverted hn]
  rfl

/-- A call may have its arguments placed and yet not be lowered. -/
theorem inverted_unlowered : ∃ n : Int, ((invertedCall n).layout dial).slots = [.value 0] ∧
    ∀ level d, lowerCall ⟨[("dial", dial)]⟩ level {} (invertedCall n) ≠ .ok d := by
  obtain ⟨n, hn⟩ : ∃ n : Int, isLong n = true :=
    ⟨(Nat.pow 10 maxDigits : Nat), isLong_iff.mpr (Nat.le_of_eq (Int.natAbs_natCast _).symm)⟩
  refine ⟨n, rfl, fun level d h => ?_⟩
  obtain ⟨bound, tail, hbound, -, -⟩ := (lowerCall_eq_ok_iff (by decide) rfl rfl).mp h
  cases hbound with
  | cons hfills _ =>
    obtain ⟨he, hd⟩ | _ | _ := hfills
    cases he
    exact absurd ((lowerArgument_inverted hn _ _ _).symm.trans hd) (by simp)

end CallSite

end Source

end CallTime

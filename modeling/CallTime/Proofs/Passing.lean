import CallTime.Proofs.Slots
import Mathlib.Data.List.TakeWhile

/-!
What the interpreter passes to the parameters of a function.

A starred argument stands for any number of values, an unpacked mapping for any names. Main statement:
where a call is accepted for some content of these, the slot of a parameter is lowered from the very
argument or default value that the interpreter passes whatever they hold, or it is unknown and the call
unpacks something. Parameters that the interpreter knows by another name than the one they are written
with, or by no name at all, must not be named in the call.
-/

namespace CallTime.Source

/-- The name by which the interpreter knows a name that is written inside a class: one that begins with
two underscores and does not end so gets the class in front. -/
def privateName (className : Option String) (id : String) : String :=
  match className with
  | none => id
  | some c =>
    let stem := c.toList.dropWhile (· = '_')
    if ['_', '_'] <+: id.toList ∧ ¬['_', '_'] <:+ id.toList ∧ '.' ∉ id.toList ∧ stem ≠ [] then
      String.ofList ('_' :: stem ++ id.toList)
    else id

inductive Supply (ε : Type) where
  /-- The object that a method is called on. -/
  | receiver
  | argument (e : ε)
  /-- A part of an argument that is unpacked. -/
  | item
  | default

section Unpacking

variable {ε : Type}

/-- The values of positional arguments, with something in the starred ones. -/
inductive Passed.Unpacks : List (Passed ε) → List (Supply ε) → Prop
  | nil : Unpacks [] []
  | plain (e : ε) {ps : List (Passed ε)} {vs : List (Supply ε)} (h : Unpacks ps vs) :
    Unpacks (⟨e, false⟩ :: ps) (.argument e :: vs)
  | starred (e : ε) (count : Nat) {ps : List (Passed ε)} {vs : List (Supply ε)} (h : Unpacks ps vs) :
    Unpacks (⟨e, true⟩ :: ps) (List.replicate count .item ++ vs)

/-- The values of arguments by name, with something in the mappings. -/
inductive Keyword.Unpacks : List (Keyword ε) → List (String × Supply ε) → Prop
  | nil : Unpacks [] []
  | named (name : String) (e : ε) {ks : List (Keyword ε)} {vs : List (String × Supply ε)}
    (h : Unpacks ks vs) : Unpacks (⟨some name, e⟩ :: ks) ((name, .argument e) :: vs)
  | mapping (e : ε) (names : List String) {ks : List (Keyword ε)} {vs : List (String × Supply ε)}
    (h : Unpacks ks vs) : Unpacks (⟨none, e⟩ :: ks) (names.map (·, .item) ++ vs)

end Unpacking

namespace Parameters

def byPlace (ps : Parameters Expr) : List (Parameter Expr) := ps.positionalOnly ++ ps.positional

def unfilled (ps : Parameters Expr) (count : Nat) : List (Parameter Expr) :=
  ps.byPlace.drop count ++ ps.keywordOnly

def nameable (ps : Parameters Expr) (count : Nat) : List (Parameter Expr) :=
  ps.positional.drop (count - ps.positionalOnly.length) ++ ps.keywordOnly

end Parameters

section Calling

variable {ε : Type} (className : Option String) (ps : Parameters Expr)

/-- What a parameter gets when these values are passed by place and these by name. -/
inductive Receives (placed : List (Supply ε)) (named : List (String × Supply ε)) :
    Parameter Expr → Supply ε → Prop
  | byPlace {i : Nat} {p : Parameter Expr} {v : Supply ε} (hp : ps.byPlace[i]? = some p)
    (hv : placed[i]? = some v) : Receives placed named p v
  | byName {p : Parameter Expr} {v : Supply ε} (hp : p ∈ ps.nameable placed.length)
    (hv : (privateName className p.name, v) ∈ named) : Receives placed named p v
  | byDefault {p : Parameter Expr} (hp : p ∈ ps.unfilled placed.length)
    (hn : p ∈ ps.nameable placed.length → ∀ v, (privateName className p.name, v) ∉ named)
    (hd : p.default.isSome) : Receives placed named p .default

structure Accepts (placed : List (Supply ε)) (named : List (String × Supply ε)) : Prop where
  fits : placed.length ≤ ps.byPlace.length ∨ ps.rest.isSome
  distinct : (named.map Prod.fst).Nodup
  /-- A name is that of a parameter that is still open, or of none that could be given by name. -/
  known : ∀ k ∈ named.map Prod.fst,
    (∃ p ∈ ps.nameable placed.length, privateName className p.name = k) ∨
      ps.keywordRest.isSome ∧
        ∀ p ∈ ps.positional ++ ps.keywordOnly, privateName className p.name ≠ k
  filled : ∀ p ∈ ps.unfilled placed.length, ∃ v, Receives className ps placed named p v

/-- The call is accepted when its unpacked arguments hold something, and these values are passed. -/
structure Enters (arguments : List (Passed ε)) (keywords : List (Keyword ε)) (placed : List (Supply ε))
    (named : List (String × Supply ε)) : Prop where
  places : ∃ vs, Passed.Unpacks arguments vs ∧
    placed = (className.map fun _ => Supply.receiver).toList ++ vs
  names : Keyword.Unpacks keywords named
  accepted : Accepts className ps placed named

def HasReceiver : Prop :=
  className.isSome → ∃ p rest, ps.byPlace = p :: rest ∧ (p.name = "self" ∨ p.name = "cls")

def Parameters.all (ps : Parameters Expr) : List (Parameter Expr) :=
  ps.byPlace ++ ps.rest.toList ++ ps.keywordOnly ++ ps.keywordRest.toList

def Distinct : Prop := (ps.all.map fun p => privateName className p.name).Nodup

instance : Decidable (Distinct className ps) :=
  inferInstanceAs (Decidable (ps.all.map fun p => privateName className p.name).Nodup)

/-- How many parameters are filled by the receiver and the arguments before a starred one. -/
def filledCount (arguments : List (Passed ε)) : Nat :=
  className.toList.length + (Binding.leading arguments).length

/-- A parameter that is not filled by place is written with a name of the call just if the interpreter
passes it what has that name. -/
def NamedAlike (arguments : List (Passed ε)) (keywords : List (Keyword ε)) (p : Parameter Expr) : Prop :=
  p ∈ ps.unfilled (filledCount className arguments) → ∀ x ∈ keywords.filterMap (·.name),
    p.name = x ↔ p ∈ ps.nameable (filledCount className arguments) ∧ privateName className p.name = x

/-- A slot holds what the parameter gets in every accepted call, or the call unpacks something. -/
inductive Slot.Follows (arguments : List (Passed ε)) (keywords : List (Keyword ε)) (p : Parameter Expr) :
    Slot ε → Prop
  | value {e : ε} (h : ∀ placed named, Enters className ps arguments keywords placed named →
      ∀ v, Receives className ps placed named p v ↔ v = .argument e) :
    Follows arguments keywords p (.value e)
  | default (h : ∀ placed named, Enters className ps arguments keywords placed named →
      ∀ v, Receives className ps placed named p v ↔ v = .default) :
    Follows arguments keywords p (.default p.name)
  | unknown (h : (∃ a ∈ arguments, a.starred = true) ∨ ∃ k ∈ keywords, k.name = none) :
    Follows arguments keywords p (.unknown p.name)

end Calling

section Unpacked

variable {ε : Type} {arguments : List (Passed ε)} {keywords : List (Keyword ε)} {vs : List (Supply ε)}
  {named : List (String × Supply ε)}

/-- The arguments before a starred one keep their places. -/
theorem Passed.Unpacks.eq_leading (h : Passed.Unpacks arguments vs) :
    ∃ more, vs = (Binding.leading arguments).map .argument ++ more ∧
      (Binding.trailing arguments = [] → more = []) := by
  induction h with
  | nil => exact ⟨[], rfl, fun _ => rfl⟩
  | plain e h ih =>
    obtain ⟨more, rfl, hmore⟩ := ih
    exact ⟨more, rfl, hmore⟩
  | starred e count h ih => exact ⟨_, rfl, fun ht => absurd ht (List.cons_ne_nil _ _)⟩

theorem Keyword.Unpacks.mem_of_pair (h : Keyword.Unpacks keywords named) {x : String} {e : ε}
    (hx : (x, e) ∈ keywords.filterMap fun k => k.name.map (·, k.value)) :
    (x, Supply.argument e) ∈ named := by
  induction h with
  | nil => exact absurd hx List.not_mem_nil
  | named name e' h ih =>
    obtain hx | hx := List.mem_cons.mp hx
    · cases hx
      exact List.mem_cons_self
    · exact List.mem_cons_of_mem _ (ih hx)
  | mapping e' names h ih => exact List.mem_append_right _ (ih hx)

theorem Keyword.Unpacks.pair_of_mem (h : Keyword.Unpacks keywords named)
    (hu : Binding.unpacked keywords = []) {x : String} {v : Supply ε} (hx : (x, v) ∈ named) :
    x ∈ keywords.filterMap (·.name) := by
  induction h with
  | nil => exact absurd hx List.not_mem_nil
  | named name e' h ih =>
    obtain hx | hx := List.mem_cons.mp hx
    · cases hx
      exact List.mem_cons_self
    · exact List.mem_cons_of_mem _ (ih hu hx)
  | mapping e' names h ih => exact absurd hu (List.cons_ne_nil _ _)

theorem Keyword.Unpacks.names_sublist (h : Keyword.Unpacks keywords named) :
    (keywords.filterMap (·.name)).Sublist (named.map Prod.fst) := by
  induction h with
  | nil => exact .refl _
  | named name e h ih => exact ih.cons_cons name
  | mapping e names h ih =>
    rw [List.map_append]
    exact ih.trans (List.sublist_append_right _ _)

end Unpacked

section Functional

variable {ε : Type} {className : Option String} {ps : Parameters Expr} {placed : List (Supply ε)}
  {named : List (String × Supply ε)} {p q : Parameter Expr}

theorem Parameters.nameable_subset (ps : Parameters Expr) (count : Nat) (h : p ∈ ps.nameable count) :
    p ∈ ps.unfilled count := by
  rw [nameable, List.mem_append] at h
  rw [unfilled, byPlace, List.drop_append, List.append_assoc, List.mem_append, List.mem_append]
  exact .inr h

theorem Parameters.mem_of_nameable {count : Nat} (h : p ∈ ps.nameable count) :
    p ∈ ps.positional ++ ps.keywordOnly :=
  ((List.drop_sublist _ _).append (.refl _)).subset h

theorem Parameters.single_sublist (ps : Parameters Expr) : (ps.byPlace ++ ps.keywordOnly).Sublist ps.all := by
  refine List.Sublist.trans ?_ (List.sublist_append_left _ _)
  exact (List.sublist_append_left _ _).append (.refl _)

theorem Distinct.eq_of_stored (hd : Distinct className ps) (hp : p ∈ ps.all) (hq : q ∈ ps.all)
    (h : privateName className p.name = privateName className q.name) : p = q :=
  List.inj_on_of_nodup_map hd hp hq h

theorem Distinct.nodup (hd : Distinct className ps) : (ps.byPlace ++ ps.keywordOnly).Nodup :=
  (List.Nodup.of_map _ hd).sublist ps.single_sublist

theorem Distinct.place_inj (hd : Distinct className ps) {i j : Nat} (hi : ps.byPlace[i]? = some p)
    (hj : ps.byPlace[j]? = some p) : i = j :=
  (List.getElem?_inj (List.getElem?_eq_some_iff.mp hi).1 (List.nodup_append.mp hd.nodup).1).mp
    (hi.trans hj.symm)

theorem Distinct.mem_unfilled_iff (hd : Distinct className ps) {i : Nat} (hp : ps.byPlace[i]? = some p)
    (count : Nat) : p ∈ ps.unfilled count ↔ count ≤ i := by
  have hn := hd.nodup
  have hnot : p ∉ ps.keywordOnly := List.disjoint_of_nodup_append hn (List.mem_of_getElem? hp)
  rw [Parameters.unfilled, List.mem_append, or_iff_left hnot]
  constructor
  · intro h
    obtain ⟨j, hj⟩ := List.mem_iff_getElem?.mp h
    rw [List.getElem?_drop] at hj
    have hij := hd.place_inj hp hj
    omega
  · intro h
    refine List.mem_iff_getElem?.mpr ⟨i - count, ?_⟩
    rw [List.getElem?_drop, Nat.add_sub_cancel' h, hp]

theorem receives_placed (hd : Distinct className ps) {i : Nat} (hp : ps.byPlace[i]? = some p)
    {v : Supply ε} (hv : placed[i]? = some v) (w : Supply ε) :
    Receives className ps placed named p w ↔ w = v := by
  obtain ⟨hi, -⟩ := List.getElem?_eq_some_iff.mp hv
  have hfilled : p ∉ ps.unfilled placed.length :=
    fun h => absurd ((hd.mem_unfilled_iff hp _).mp h) (Nat.not_le.mpr hi)
  constructor
  · intro h
    cases h with
    | byPlace hp' hv' =>
      obtain rfl := hd.place_inj hp hp'
      exact Option.some.inj (hv'.symm.trans hv)
    | byName hp' _ => exact absurd (ps.nameable_subset _ hp') hfilled
    | byDefault hp' _ _ => exact absurd hp' hfilled
  · rintro rfl
    exact .byPlace hp hv

theorem Distinct.getElem?_of_unfilled (hd : Distinct className ps) (hp : p ∈ ps.unfilled placed.length)
    {i : Nat} (hi : ps.byPlace[i]? = some p) : placed[i]? = none :=
  List.getElem?_eq_none ((hd.mem_unfilled_iff hi _).mp hp)

theorem receives_named (hd : Distinct className ps) (ha : Accepts className ps placed named)
    (hp : p ∈ ps.nameable placed.length) {v : Supply ε}
    (hv : (privateName className p.name, v) ∈ named) (w : Supply ε) :
    Receives className ps placed named p w ↔ w = v := by
  constructor
  · intro h
    cases h with
    | byPlace hi hw =>
      rw [hd.getElem?_of_unfilled (ps.nameable_subset _ hp) hi] at hw
      cases hw
    | byName _ hw => exact congrArg Prod.snd (List.inj_on_of_nodup_map ha.distinct hw hv rfl)
    | byDefault _ hn _ => exact absurd hv (hn hp v)
  · rintro rfl
    exact .byName hp hv

theorem receives_default (hd : Distinct className ps) (ha : Accepts className ps placed named)
    (hp : p ∈ ps.unfilled placed.length)
    (hn : p ∈ ps.nameable placed.length → ∀ v, (privateName className p.name, v) ∉ named)
    (w : Supply ε) :
    p.default.isSome ∧ (Receives className ps placed named p w ↔ w = .default) := by
  have honly {w : Supply ε} (h : Receives className ps placed named p w) :
      p.default.isSome ∧ w = .default := by
    cases h with
    | byPlace hi hw =>
      rw [hd.getElem?_of_unfilled hp hi] at hw
      cases hw
    | byName hp' hw => exact absurd hw (hn hp' w)
    | byDefault _ _ h => exact ⟨h, rfl⟩
  obtain ⟨v, hv⟩ := ha.filled p hp
  obtain ⟨hdefault, rfl⟩ := honly hv
  refine ⟨hdefault, fun h => (honly h).2, ?_⟩
  rintro rfl
  exact hv

end Functional

section Make

variable {className : Option String} {ps : Parameters Expr} {p q : Parameter Expr}

theorem Distinct.eq_of_name (hd : Distinct className ps) (hp : p ∈ ps.all) (hq : q ∈ ps.all)
    (h : p.name = q.name) : p = q :=
  hd.eq_of_stored hp hq (congrArg _ h)

theorem Distinct.nodup_names (hd : Distinct className ps) : (ps.all.map (·.name)).Nodup := by
  refine List.Nodup.of_map (privateName className) ?_
  rw [List.map_map]
  exact hd

theorem Parameter.defaulted_sublist (ps : List (Parameter Expr)) :
    ((ps.filterMap fun p => p.default.map (p.name, ·)).map Prod.fst).Sublist (ps.map (·.name)) := by
  induction ps with
  | nil => exact .refl _
  | cons p ps ih =>
    rw [List.filterMap_cons]
    cases p.default with
    | none => exact ih.cons _
    | some e => exact ih.cons_cons _

theorem Distinct.get?_defaultsOf (hd : Distinct className ps) (hp : p ∈ ps.byPlace ++ ps.keywordOnly) :
    (Signature.defaultsOf ps).get? p.name = p.default := by
  have hnames : ((ps.byPlace ++ ps.keywordOnly).map (·.name)).Nodup :=
    hd.nodup_names.sublist (ps.single_sublist.map _)
  have hentries : (Signature.defaultsOf ps).entries = _ :=
    OrderedMap.entries_ofList (hnames.sublist (Parameter.defaulted_sublist _))
  cases h : p.default with
  | some e =>
    have hmem : (p.name, e) ∈ (Signature.defaultsOf ps).entries := by
      rw [hentries]
      exact List.mem_filterMap.mpr ⟨p, hp, by rw [h]; rfl⟩
    exact OrderedMap.get?_of_mem (OrderedMap.nodup_keys_ofList _) hmem
  | none =>
    refine OrderedMap.get?_eq_none_iff.mpr fun e he hname => ?_
    rw [hentries] at he
    obtain ⟨q, hq, he⟩ := List.mem_filterMap.mp he
    obtain ⟨d, hq', rfl⟩ := Option.map_eq_some_iff.mp he
    obtain rfl := hd.eq_of_name (ps.single_sublist.subset hq) (ps.single_sublist.subset hp) hname
    rw [h] at hq'
    cases hq'

theorem positional_make (hr : HasReceiver className ps) (key name : String) (line : Nat)
    (body : List Stmt) : (Signature.make key name className line ps body).positional =
      (ps.byPlace.drop className.toList.length).map (·.name) := by
  change Signature.visible className (ps.byPlace.map (·.name)) = _
  cases className with
  | none => rfl
  | some c =>
    obtain ⟨p, rest, hps, hp⟩ := hr rfl
    rw [hps, List.map_cons]
    obtain hp | hp := hp <;> rw [hp] <;> rfl

theorem HasReceiver.length_le (hr : HasReceiver className ps) :
    className.toList.length ≤ ps.byPlace.length := by
  cases className with
  | none => exact Nat.zero_le _
  | some c =>
    obtain ⟨p, rest, hps, -⟩ := hr rfl
    rw [hps]
    exact Nat.le_add_left _ _

theorem parameters_make (hr : HasReceiver className ps) (key name : String) (line : Nat)
    (body : List Stmt) : (Signature.make key name className line ps body).parameters =
      (ps.all.drop className.toList.length).map (·.name) := by
  have hle := hr.length_le
  have hoption (o : Option (Parameter Expr)) : (o.map (·.name)).toList = o.toList.map (·.name) := by
    cases o <;> rfl
  rw [Signature.parameters, positional_make hr, Parameters.all]
  simp only [List.append_assoc, List.drop_append_of_le_length hle, List.map_append, Signature.make, hoption]

theorem nodup_parameters_make (hr : HasReceiver className ps) (hd : Distinct className ps)
    (key name : String) (line : Nat) (body : List Stmt) :
    (Signature.make key name className line ps body).parameters.Nodup := by
  rw [parameters_make hr]
  exact hd.nodup_names.sublist ((List.drop_sublist _ _).map _)

theorem getElem?_third {α : Type} {as bs cs ds : List α} {n j : Nat} {a : α}
    (hn : n = as.length + bs.length + j) (h : cs[j]? = some a) :
    (as ++ bs ++ cs ++ ds)[n]? = some a := by
  subst hn
  have hlt := (List.getElem?_eq_some_iff.mp h).1
  rw [List.append_assoc, List.getElem?_append_right (by simp), List.length_append,
    Nat.add_sub_cancel_left, List.getElem?_append_left hlt, h]

theorem Distinct.place (hd : Distinct className ps) (hp : p ∈ ps.byPlace ++ ps.keywordOnly) {n : Nat}
    (hn : ps.all[n]? = some p) : ps.byPlace[n]? = some p ∨
      ∃ j, n = ps.byPlace.length + ps.rest.toList.length + j ∧ ps.keywordOnly[j]? = some p := by
  have hinj {m : Nat} (hm : ps.all[m]? = some p) : m = n :=
    (List.getElem?_inj (List.getElem?_eq_some_iff.mp hm).1 (List.Nodup.of_map _ hd)).mp (hm.trans hn.symm)
  obtain hp | hp := List.mem_append.mp hp
  · obtain ⟨m, hm⟩ := List.mem_iff_getElem?.mp hp
    have hlt := (List.getElem?_eq_some_iff.mp hm).1
    obtain rfl : m = n := hinj (by
      rw [Parameters.all, List.append_assoc, List.append_assoc, List.getElem?_append_left hlt, hm])
    exact .inl hm
  · obtain ⟨m, hm⟩ := List.mem_iff_getElem?.mp hp
    right
    refine ⟨m, (hinj ?_).symm, hm⟩
    exact getElem?_third rfl hm

end Make

section Slots

variable {ε : Type} {className : Option String} {ps : Parameters Expr} {arguments : List (Passed ε)}
  {keywords : List (Keyword ε)} {placed : List (Supply ε)} {named : List (String × Supply ε)}
  {p : Parameter Expr}

theorem Enters.eq_leading (h : Enters className ps arguments keywords placed named) :
    ∃ more, placed = (className.map fun _ => Supply.receiver).toList ++
        (Binding.leading arguments).map .argument ++ more ∧
      placed.length = filledCount className arguments + more.length ∧
      (Binding.trailing arguments = [] → more = []) := by
  obtain ⟨vs, hvs, rfl⟩ := h.places
  obtain ⟨more, rfl, hmore⟩ := hvs.eq_leading
  refine ⟨more, (List.append_assoc ..).symm, ?_, hmore⟩
  rw [filledCount, ← List.append_assoc, List.length_append, List.length_append, List.length_map]
  cases className <;> rfl

theorem Parameters.nameable_mono {count count' : Nat} (hle : count ≤ count')
    (h : p ∈ ps.nameable count') : p ∈ ps.nameable count :=
  ((List.drop_sublist_drop_left _ (Nat.sub_le_sub_right hle _)).append (.refl _)).subset h

theorem Parameters.mem_of_unfilled {count : Nat} (h : p ∈ ps.unfilled count) :
    p ∈ ps.byPlace ++ ps.keywordOnly :=
  ((List.drop_sublist _ _).append (.refl _)).subset h

theorem Enters.entries_named (h : Enters className ps arguments keywords placed named) :
    (Binding.named keywords).entries = keywords.filterMap fun k => k.name.map (·, k.value) :=
  Binding.entries_named (h.accepted.distinct.sublist h.names.names_sublist)

theorem follows_value (hd : Distinct className ps)
    (he : Enters className ps arguments keywords placed named)
    (hp : p ∈ ps.unfilled (filledCount className arguments))
    (hk : NamedAlike className ps arguments keywords p) {e : ε}
    (hget : (Binding.named keywords).get? p.name = some e) :
    (Slot.value e).Follows className ps arguments keywords p := by
  have hpair := OrderedMap.mem_entries_of_get? hget
  rw [he.entries_named] at hpair
  have hx : p.name ∈ keywords.filterMap (·.name) := by
    obtain ⟨k, hk, hpair⟩ := List.mem_filterMap.mp hpair
    obtain ⟨x, hx, hpair⟩ := Option.map_eq_some_iff.mp hpair
    cases hpair
    exact List.mem_filterMap.mpr ⟨k, hk, hx⟩
  obtain ⟨hnameable, hstored⟩ := (hk hp _ hx).mp rfl
  refine .value fun placed named hen w => ?_
  have hmem := hen.names.mem_of_pair hpair
  -- A name that the interpreter knows can only be that of this parameter.
  have hopen : p ∈ ps.nameable placed.length := by
    obtain ⟨q, hq, hqs⟩ | ⟨-, hnone⟩ := hen.accepted.known _ (List.mem_map_of_mem hmem)
    · have hall {r : Parameter Expr} (hr : r ∈ ps.byPlace ++ ps.keywordOnly) : r ∈ ps.all :=
        ps.single_sublist.subset hr
      obtain rfl := hd.eq_of_stored (hall (Parameters.mem_of_unfilled (ps.nameable_subset _ hq)))
        (hall (Parameters.mem_of_unfilled hp)) (hqs.trans hstored.symm)
      exact hq
    · exact absurd hstored (hnone p (Parameters.mem_of_nameable hnameable))
  exact receives_named hd hen.accepted hopen (by rwa [hstored]) w

theorem Enters.not_given (he : Enters className ps arguments keywords placed named)
    (hp : p ∈ ps.unfilled (filledCount className arguments))
    (hk : NamedAlike className ps arguments keywords p)
    (hget : (Binding.named keywords).get? p.name = none) (hu : Binding.unpacked keywords = [])
    (hp' : p ∈ ps.nameable placed.length) (v : Supply ε) : (privateName className p.name, v) ∉ named := by
  intro hmem
  have hx := he.names.pair_of_mem hu hmem
  obtain ⟨more, -, hlength, -⟩ := he.eq_leading
  have hname := (hk hp _ hx).mpr ⟨Parameters.nameable_mono (by omega) hp', rfl⟩
  obtain ⟨k, hk, hkx⟩ := List.mem_filterMap.mp hx
  refine OrderedMap.get?_eq_none_iff.mp hget (privateName className p.name, k.value) ?_ hname.symm
  rw [he.entries_named]
  exact List.mem_filterMap.mpr ⟨k, hk, by rw [hkx]; rfl⟩

/-- An open parameter gets the value with its name or its default value, or is unknown. -/
theorem follows_slotFor (hd : Distinct className ps)
    (he : Enters className ps arguments keywords placed named)
    (hp : p ∈ ps.unfilled (filledCount className arguments))
    (hk : NamedAlike className ps arguments keywords p) {g : Signature}
    (hg : g.defaults = Signature.defaultsOf ps) {unsure : Bool}
    (hunsure : unsure = true → (∃ a ∈ arguments, a.starred = true) ∨ ∃ k ∈ keywords, k.name = none)
    (hsure : unsure = false → Binding.unpacked keywords = [] ∧
      ∀ placed named, Enters className ps arguments keywords placed named → p ∈ ps.unfilled placed.length) :
    (Binding.slotFor g unsure (Binding.named keywords) p.name).Follows className ps arguments keywords p := by
  rw [Binding.slotFor]
  cases hget : (Binding.named keywords).get? p.name with
  | some e => exact follows_value hd he hp hk hget
  | none =>
    cases unsure with
    | true => exact .unknown (hunsure rfl)
    | false =>
      obtain ⟨hu, hopen⟩ := hsure rfl
      have hgets {placed : List (Supply ε)} {named : List (String × Supply ε)}
          (hen : Enters className ps arguments keywords placed named) (w : Supply ε) :=
        receives_default hd hen.accepted (hopen _ _ hen) (hen.not_given hp hk hget hu) w
      obtain ⟨e, hdefault⟩ := Option.isSome_iff_exists.mp (hgets he .default).1
      have hmem := OrderedMap.mem_entries_of_get?
        ((hd.get?_defaultsOf (Parameters.mem_of_unfilled hp)).trans hdefault)
      have hcontains : g.defaults.contains p.name = true := by
        rw [hg]
        exact List.any_eq_true.mpr ⟨_, hmem, decide_eq_true rfl⟩
      simp only [hcontains, Bool.not_false, Bool.and_self, if_true]
      exact .default fun placed named hen w => (hgets hen w).2

theorem starred_of_trailing (h : Binding.trailing arguments ≠ []) : ∃ a ∈ arguments, a.starred = true := by
  by_contra hnone
  push Not at hnone
  have hnil : arguments.dropWhile (!·.starred) = [] := by simpa [List.dropWhile_eq_nil_iff] using hnone
  exact h (by rw [Binding.trailing, hnil, List.map_nil])

theorem mapping_of_unpacked (h : Binding.unpacked keywords ≠ []) : ∃ k ∈ keywords, k.name = none := by
  obtain ⟨e, he⟩ := List.exists_mem_of_ne_nil _ h
  obtain ⟨k, hk, he⟩ := List.mem_filterMap.mp he
  refine ⟨k, hk, ?_⟩
  cases hn : k.name with
  | none => rfl
  | some x => simp [hn] at he

theorem follows_byPlace (hd : Distinct className ps)
    (he : Enters className ps arguments keywords placed named)
    (hk : NamedAlike className ps arguments keywords p) {i : Nat}
    (hi : ps.byPlace[className.toList.length + i]? = some p) {g : Signature}
    (hg : g.defaults = Signature.defaultsOf ps) :
    (((Binding.leading arguments)[i]?).elim
      (Binding.slotFor g (!(Binding.trailing arguments).isEmpty || !(Binding.unpacked keywords).isEmpty)
        (Binding.named keywords) p.name) Slot.value).Follows className ps arguments keywords p := by
  cases hl : (Binding.leading arguments)[i]? with
  | some e =>
    refine .value fun placed named hen w => receives_placed hd hi ?_ w
    obtain ⟨more, rfl, -, -⟩ := hen.eq_leading
    have hlt := (List.getElem?_eq_some_iff.mp hl).1
    have hreceiver : (className.map fun _ => (Supply.receiver : Supply ε)).toList.length =
        className.toList.length := by
      cases className <;> rfl
    rw [List.append_assoc, List.getElem?_append_right (by omega), hreceiver, Nat.add_sub_cancel_left,
      List.getElem?_append_left (by rwa [List.length_map]), List.getElem?_map, hl]
    rfl
  | none =>
    have hle := List.getElem?_eq_none_iff.mp hl
    have hp : p ∈ ps.unfilled (filledCount className arguments) :=
      (hd.mem_unfilled_iff hi _).mpr (Nat.add_le_add_left hle _)
    refine follows_slotFor hd he hp hk hg (fun h => ?_) fun h => ?_
    · simp only [Bool.or_eq_true, Bool.not_eq_true', List.isEmpty_eq_false_iff] at h
      exact h.imp starred_of_trailing mapping_of_unpacked
    · simp only [Bool.or_eq_false_iff, Bool.not_eq_false', List.isEmpty_iff] at h
      refine ⟨h.2, fun placed named hen => ?_⟩
      obtain ⟨more, -, hlength, hmore⟩ := hen.eq_leading
      rwa [hlength, hmore h.1]

theorem follows_keywordOnly (hd : Distinct className ps)
    (he : Enters className ps arguments keywords placed named)
    (hk : NamedAlike className ps arguments keywords p) (hp : p ∈ ps.keywordOnly) {g : Signature}
    (hg : g.defaults = Signature.defaultsOf ps) :
    (Binding.slotFor g (!(Binding.unpacked keywords).isEmpty) (Binding.named keywords) p.name).Follows
      className ps arguments keywords p := by
  refine follows_slotFor hd he (List.mem_append_right _ hp) hk hg (fun h => ?_) fun h => ?_
  · exact .inr (mapping_of_unpacked (by simpa using h))
  · exact ⟨by simpa using h, fun placed named hen => List.mem_append_right _ hp⟩

theorem slots_follow (hr : HasReceiver className ps) (hd : Distinct className ps)
    (he : Enters className ps arguments keywords placed named)
    (hk : NamedAlike className ps arguments keywords p) (hp : p ∈ ps.byPlace ++ ps.keywordOnly)
    {key name : String} {line : Nat} {body : List Stmt} {i : Nat}
    (hi : (Signature.make key name className line ps body).parameters[i]? = some p.name) :
    ∃ slot, (Binding.make (Signature.make key name className line ps body) arguments keywords).slots[i]? =
        some slot ∧ slot.Follows className ps arguments keywords p := by
  have hlength := hr.length_le
  have hnodup := nodup_parameters_make hr hd key name line body
  have hall : ps.all[className.toList.length + i]? = some p := by
    rw [parameters_make hr, List.getElem?_map, List.getElem?_drop] at hi
    obtain ⟨q, hq, hname⟩ := Option.map_eq_some_iff.mp hi
    rw [hq, hd.eq_of_name (List.mem_of_getElem? hq) (ps.single_sublist.subset hp) hname]
  rw [Binding.make_of_nodup hnodup, positional_make hr]
  dsimp only
  obtain hplace | ⟨j, hj, honly⟩ := hd.place hp hall
  · refine ⟨_, ?_, follows_byPlace hd he hk hplace (g := Signature.make key name className line ps body) rfl⟩
    have hlt := (List.getElem?_eq_some_iff.mp hplace).1
    rw [List.append_assoc, List.append_assoc, List.getElem?_append_left (by simp; omega),
      List.getElem?_mapIdx, List.getElem?_map, List.getElem?_drop, hplace]
    rfl
  · refine ⟨_, ?_, follows_keywordOnly hd he hk (List.mem_of_getElem? honly)
      (g := Signature.make key name className line ps body) rfl⟩
    have hrest : (ps.rest.map (·.name)).toList.length = ps.rest.toList.length := by
      cases ps.rest <;> rfl
    refine getElem?_third (j := j) ?_ ?_
    · rw [List.length_mapIdx, List.length_map, List.length_drop, List.length_map]
      change i = _ + (ps.rest.map (·.name)).toList.length + j
      omega
    · change ((ps.keywordOnly.map (·.name)).map _)[j]? = _
      rw [List.getElem?_map, List.getElem?_map, honly]
      rfl

end Slots

namespace CallSite

/-- In a call that can be accepted, the slot of a parameter holds the argument or the default value that
the interpreter passes whatever is unpacked, or something is unpacked. The node at its index is lowered
from what the slot holds. -/
theorem slot_holds_passed (s : CallSite Expr) {className : Option String} {ps : Parameters Expr}
    (hr : HasReceiver className ps) (hd : Distinct className ps) {placed : List (Supply Nat)}
    {named : List (String × Supply Nat)}
    (he : Enters className ps s.passedNumbers s.namedNumbers placed named) {p : Parameter Expr}
    (hp : p ∈ ps.byPlace ++ ps.keywordOnly)
    (hk : NamedAlike className ps s.passedNumbers s.namedNumbers p) {g : Signature} {key name : String}
    {line : Nat} {body : List Stmt} (hg : g = Signature.make key name className line ps body) {i : Nat}
    (hi : g.parameters[i]? = some p.name) :
    g.defaults.get? p.name = p.default ∧
    ∃ slot, (s.layout g).slots[i]? = some slot ∧
      slot.Follows className ps s.passedNumbers s.namedNumbers p ∧
      ∀ signatures level scope target, targetKey? signatures scope s.function = some target →
        signatures.get? target = some g → ∀ d, lowerCall signatures level scope s = .ok d →
          ∃ arguments node,
            d = .call (some s.line) (some (calleeText s.function)) arguments (some target) ∧
            arguments[i]? = some node ∧ s.Fills signatures level scope g slot node := by
  subst hg
  have hnodup := nodup_parameters_make hr hd key name line body
  obtain ⟨slot, hslot, hfollows⟩ := slots_follow hr hd he hk hp hi
  refine ⟨hd.get?_defaultsOf hp, slot, hslot, hfollows, fun signatures level scope target ht hg d hl => ?_⟩
  obtain ⟨bound, tail, hbound, -, rfl⟩ := (lowerCall_eq_ok_iff hnodup ht hg).mp hl
  obtain ⟨hlt, hget⟩ := List.getElem?_eq_some_iff.mp hslot
  have hlt' : i < bound.length := hbound.length_eq ▸ hlt
  refine ⟨bound ++ tail, bound[i], rfl, ?_, ?_⟩
  · rw [List.getElem?_append_left hlt', List.getElem?_eq_getElem hlt']
  · have hfills := hbound.get hlt hlt'
    rw [List.get_eq_getElem] at hfills
    rw [← hget]
    exact hfills

/-- `check(self, level, /, limit=0, *rest, mode, **extra)` -/
def gateParameters : Parameters Expr where
  positionalOnly := [{ name := "self" }, { name := "level" }]
  positional := [{ name := "limit", default := some (.constant 2 (.int 0) {}) }]
  rest := some { name := "rest" }
  keywordOnly := [{ name := "mode" }]
  keywordRest := some { name := "extra" }

def gateSignature : Signature := .make "Gate.check" "check" (some "Gate") 2 gateParameters []

/-- `self.check(start(), mode=pick(), **options())` -/
def gateCall : CallSite Expr :=
  ⟨4, .attribute 4 (.name 4 "self" .load) "check", [bare "start"],
    [⟨some "mode", bare "pick"⟩, ⟨none, bare "options"⟩]⟩

/-- The call is accepted when nothing is in the mapping. -/
theorem gateCall_enters : Enters (some "Gate") gateParameters gateCall.passedNumbers
    gateCall.namedNumbers [.receiver, .argument 0] [("mode", .argument 1)] where
  places := ⟨_, .plain 0 .nil, rfl⟩
  names := .named "mode" 1 (.mapping 2 [] .nil)
  accepted := {
    fits := .inl (by decide)
    distinct := List.nodup_singleton _
    known := by
      intro k hk
      obtain rfl := List.mem_singleton.mp hk
      exact .inl ⟨{ name := "mode" }, List.mem_cons_of_mem _ List.mem_cons_self, by decide⟩
    filled := by
      intro p hp
      obtain rfl | hp := List.mem_cons.mp hp
      · refine ⟨.default, .byDefault List.mem_cons_self (fun _ v hv => ?_) rfl⟩
        have hname : privateName (some "Gate") "limit" = "mode" := congrArg Prod.fst (List.mem_singleton.mp hv)
        exact absurd hname (by decide)
      · obtain rfl := List.mem_singleton.mp hp
        have hname : privateName (some "Gate") "mode" = "mode" := by decide
        refine ⟨.argument 1, .byName (List.mem_cons_of_mem _ List.mem_cons_self) ?_⟩
        rw [hname]
        exact List.mem_cons_self }

theorem gateCall_mode : (gateCall.layout gateSignature).slots[3]? = some (.value 1) ∧
    ∀ placed named, Enters (some "Gate") gateParameters gateCall.passedNumbers gateCall.namedNumbers
      placed named → ∀ v, Receives (some "Gate") gateParameters placed named { name := "mode" } v ↔
        v = .argument 1 := by
  have hslot : (gateCall.layout gateSignature).slots[3]? = some (.value 1) := rfl
  have hmode : NamedAlike (some "Gate") gateParameters gateCall.passedNumbers gateCall.namedNumbers
      { name := "mode" } := by
    intro _ x hx
    obtain rfl := List.mem_singleton.mp hx
    exact ⟨fun _ => ⟨List.mem_cons_of_mem _ List.mem_cons_self, by decide⟩, fun _ => rfl⟩
  have hreceiver : HasReceiver (some "Gate") gateParameters := fun _ => ⟨_, _, rfl, .inl rfl⟩
  obtain ⟨-, slot, hs, hfollows, -⟩ := slot_holds_passed gateCall hreceiver (by decide) gateCall_enters
    (p := { name := "mode" }) (by simp [gateParameters]) hmode (g := gateSignature) (i := 3) rfl rfl
  obtain rfl := Option.some.inj (hs.symm.trans hslot)
  cases hfollows with
  | value h => exact ⟨hslot, h⟩

/-- `gauge(level=0, /, **extra)` -/
def gaugeParameters : Parameters Expr where
  positionalOnly := [{ name := "level", default := some (.constant 1 (.int 0) {}) }]
  keywordRest := some { name := "extra" }

/-- `gauge(level=pick())` -/
def gaugeCall : CallSite Expr := ⟨4, .name 4 "gauge" .load, [], [⟨some "level", bare "pick"⟩]⟩

/-- A parameter that has no name for the interpreter keeps its default value, and yet its slot holds the
argument that is written with its name. -/
theorem gaugeCall_misread :
    (gaugeCall.layout (.make "gauge" "gauge" none 1 gaugeParameters [])).slots[0]? = some (.value 0) ∧
    ∃ placed named, Enters none gaugeParameters gaugeCall.passedNumbers gaugeCall.namedNumbers placed named ∧
      ∃ p, gaugeParameters.byPlace[0]? = some p ∧
        ∀ v, Receives none gaugeParameters placed named p v ↔ v = .default := by
  have hno (p : Parameter Expr) (hp : p ∈ gaugeParameters.nameable 0) : False := List.not_mem_nil hp
  have haccepts : Accepts (ε := Nat) none gaugeParameters [] [("level", .argument 0)] := {
    fits := .inl (Nat.zero_le _)
    distinct := List.nodup_singleton _
    known := fun k _ => .inr ⟨rfl, fun p hp => absurd hp List.not_mem_nil⟩
    filled := by
      intro p hp
      obtain rfl := List.mem_singleton.mp hp
      exact ⟨.default, .byDefault hp (fun hp => (hno _ hp).elim) rfl⟩ }
  refine ⟨rfl, [], _, ⟨⟨_, .nil, rfl⟩, .named "level" 0 .nil, haccepts⟩, _, rfl, fun v => ?_⟩
  exact (receives_default (by decide) haccepts List.mem_cons_self (fun hp => (hno _ hp).elim) v).2

end CallSite

end CallTime.Source

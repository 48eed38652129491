import CallTime.Proofs.Meaning
import CallTime.Proofs.WellFormed

/-!
The calls that are lowered with an expression.

A call is told by the line it starts on and the text of what it calls. Main statement: lowering an
expression makes the calls of everything that it goes into, and no others but those of default values.
-/

namespace CallTime

namespace Source

def Slot.values {ε : Type} : Slot ε → List ε
  | .value e => [e]
  | .default _ | .unknown _ => []

/-- Where a call comes from: the line it starts on and the text of what is called. -/
abbrev Origin := Option Nat × Option String

def CallSite.origin (s : CallSite Expr) : Origin := (some s.line, some (calleeText s.function))

namespace Expr

def site? : Expr → Option (CallSite Expr)
  | .call s => some s
  | _ => none

theorem eq_call_or_site?_eq_none (e : Expr) : (∃ s, e = .call s) ∨ e.site? = none := by
  cases e with
  | call s => exact .inl ⟨s, rfl⟩
  | _ => exact .inr rfl

def Absent (o : Origin) (e : Expr) : Prop := ∀ s, e.Holds (.call s) → s.origin ≠ o

theorem Absent.of_holds {o : Origin} {e c : Expr} (h : e.Absent o) (hc : e.Holds c) : c.Absent o :=
  fun s hs => h s (hc.trans hs)

end Expr

def tally (o : Origin) (ss : List (CallSite Expr)) : Nat := (ss.map CallSite.origin).count o

section Tally

variable {o : Origin}

@[simp] theorem tally_nil : tally o [] = 0 := rfl

@[simp] theorem tally_cons (s : CallSite Expr) (ss : List (CallSite Expr)) :
    tally o (s :: ss) = tally o ss + if s.origin = o then 1 else 0 := by
  simp [tally, List.count_cons]

@[simp] theorem tally_append (ss ts : List (CallSite Expr)) :
    tally o (ss ++ ts) = tally o ss + tally o ts := by
  simp [tally]

theorem tally_flatMap_congr {α : Type} {f g : α → List (CallSite Expr)} {as : List α}
    (h : ∀ a ∈ as, tally o (f a) = tally o (g a)) :
    tally o (as.flatMap f) = tally o (as.flatMap g) := by
  induction as with
  | nil => rfl
  | cons a as ih =>
    obtain ⟨ha, has⟩ := List.forall_mem_cons.mp h
    rw [List.flatMap_cons, List.flatMap_cons, tally_append, tally_append, ha, ih has]

theorem tally_flatMap_eq_zero {α : Type} {f : α → List (CallSite Expr)} {as : List α}
    (h : ∀ a ∈ as, tally o (f a) = 0) : tally o (as.flatMap f) = 0 := by
  induction as with
  | nil => rfl
  | cons a as ih =>
    obtain ⟨ha, has⟩ := List.forall_mem_cons.mp h
    rw [List.flatMap_cons, tally_append, ha, ih has]

end Tally

inductive Mode where
  | value
  /-- The calls in it, for want of a parameter that takes its value. -/
  | spare
  /-- The calls in it, as a part of something that has no value. -/
  | part
  deriving DecidableEq

namespace Expr

/-- Its value is worked out from the values of its parts. -/
def isCombined : Expr → Bool
  | .compare _ _ _ | .junction _ _ _ | .unary _ .not _ => true
  | .binary _ op _ _ => op.evaluated?.isSome
  | _ => false

end Expr

def Mode.below (m : Mode) (e : Expr) : Mode :=
  if m = .value ∧ e.isCombined = true then .value else .part

def CallSite.signature? (signatures : OrderedMap String Signature) (className : Option String)
    (s : CallSite Expr) : Option Signature :=
  (targetKey? signatures { className } s.function).bind signatures.get?

section Visits

variable (signatures : OrderedMap String Signature) (className : Option String)

/-- Lowering an expression for something lowers a part of it for something. -/
inductive Descends : Mode → Expr → Mode → Expr → Prop
  | child {m : Mode} {e c : Expr} (he : e.site? = none) (hc : c ∈ e.children) :
    Descends m e (m.below e) c
  | argument {m : Mode} {s : CallSite Expr} (hs : s.signature? signatures className = none)
    {p : Passed { c : Expr // sizeOf c < sizeOf s }} (hp : p ∈ s.passed) :
    Descends m (.call s) .value p.value.1
  | keyword {m : Mode} {s : CallSite Expr} (hs : s.signature? signatures className = none)
    {k : Keyword { c : Expr // sizeOf c < sizeOf s }} (hk : k ∈ s.named) :
    Descends m (.call s) .value k.value.1
  | bound {m : Mode} {s : CallSite Expr} {g : Signature}
    (hs : s.signature? signatures className = some g) {e : { c : Expr // sizeOf c < sizeOf s }}
    (he : .value e ∈ (Binding.make g s.passed s.named).slots) : Descends m (.call s) .value e.1
  | spare {m : Mode} {s : CallSite Expr} {g : Signature}
    (hs : s.signature? signatures className = some g) {e : { c : Expr // sizeOf c < sizeOf s }}
    (he : e ∈ (Binding.make g s.passed s.named).spare) : Descends m (.call s) .spare e.1

variable {signatures className} {m m' : Mode}

theorem Descends.holds {e c : Expr} (h : Descends signatures className m e m' c) :
    e.Holds c := by
  cases h with
  | child he hc => exact Expr.holds_child hc
  | argument hs hp => exact CallSite.holds_passed hp
  | keyword hs hk => exact CallSite.holds_named hk
  | @bound s g _ _ he => exact (CallSite.make_from g s).1 _ he
  | @spare s g _ _ he => exact (CallSite.make_from g s).2 _ he

theorem Descends.sizeOf_lt {e c : Expr} (h : Descends signatures className m e m' c) :
    sizeOf c < sizeOf e := by
  have hpart {s : CallSite Expr} (c : { c : Expr // sizeOf c < sizeOf s }) :
      sizeOf c.1 < sizeOf (Expr.call s) := by
    have := c.2
    rw [Expr.call.sizeOf_spec]
    omega
  cases h with
  | child he hc => exact Expr.sizeOf_child e c hc
  | _ => exact hpart _

end Visits

namespace Expr

/-- The parts of an expression other than a call that are lowered with it. Of a chain of comparisons each
step has two, and a lambda that is a part of something has none. -/
def taken (m : Mode) : Expr → List Expr
  | .compare line left rest =>
    if m = .value then (comparisonSteps left rest).flatMap fun p => [p.1, p.2.2]
    else (compare line left rest).children
  | .lambda line parameters body => if m = .part then [] else (lambda line parameters body).children
  | e => e.children

theorem mem_children_of_taken {m : Mode} {e c : Expr} (h : c ∈ e.taken m) : c ∈ e.children := by
  unfold taken at h
  split at h
  · split at h
    · obtain ⟨⟨l, op, r⟩, hp, hc⟩ := List.mem_flatMap.mp h
      obtain ⟨hl, d, hd, hr⟩ := mem_comparisonSteps hp
      obtain rfl | hc := List.mem_cons.mp hc
      · obtain rfl | ⟨d, hd, rfl⟩ := hl
        · exact List.mem_cons_self
        · exact List.mem_cons_of_mem _ (List.mem_map_of_mem hd)
      · rw [List.mem_singleton.mp hc, ← hr]
        exact List.mem_cons_of_mem _ (List.mem_map_of_mem hd)
    · exact h
  · split at h
    · cases h
    · exact h
  · exact h

end Expr

section Visits

variable (signatures : OrderedMap String Signature) (className : Option String)

/-- The parts that lowering an expression goes into, each with what it is lowered for. -/
def Expr.descents (m : Mode) : Expr → List (Mode × Expr)
  | .call s => match s.signature? signatures className with
    | none => s.passed.map (fun p => (.value, p.value.1)) ++ s.named.map fun k => (.value, k.value.1)
    | some g =>
      ((Binding.make g s.passed s.named).slots.flatMap Slot.values).map (fun e => (.value, e.1)) ++
        (Binding.make g s.passed s.named).spare.map fun e => (.spare, e.1)
  | e => (e.taken m).map (m.below e, ·)

variable {signatures className} {m m' : Mode}

theorem Expr.descents_of_site?_eq_none {e : Expr} (he : e.site? = none) (m : Mode) :
    e.descents signatures className m = (e.taken m).map (m.below e, ·) := by
  cases e with
  | call s => cases he
  | _ => rfl

theorem CallSite.flatMap_descents_none {α : Type} {s : CallSite Expr}
    (hs : s.signature? signatures className = none) (g : Mode × Expr → List α) :
    ((Expr.call s).descents signatures className m).flatMap g =
      s.passed.flatMap (fun p => g (.value, p.value.1)) ++
        s.named.flatMap fun k => g (.value, k.value.1) := by
  simp only [Expr.descents, hs, List.flatMap_append, List.flatMap_map]

theorem CallSite.flatMap_descents_some {α : Type} {s : CallSite Expr} {f : Signature}
    (hs : s.signature? signatures className = some f) (g : Mode × Expr → List α) :
    ((Expr.call s).descents signatures className m).flatMap g =
      ((Binding.make f s.passed s.named).slots.flatMap
          fun slot => slot.values.flatMap fun e => g (.value, e.1)) ++
        (Binding.make f s.passed s.named).spare.flatMap fun e => g (.spare, e.1) := by
  simp only [Expr.descents, hs, List.flatMap_append, List.flatMap_map, List.flatMap_assoc]

theorem Expr.descends_of_mem {e c : Expr} (h : (m', c) ∈ e.descents signatures className m) :
    Descends signatures className m e m' c := by
  obtain ⟨s, rfl⟩ | he := e.eq_call_or_site?_eq_none
  · rw [descents] at h
    split at h
    · next hs =>
      obtain h | h := List.mem_append.mp h
      · obtain ⟨p, hp, he⟩ := List.mem_map.mp h
        cases he
        exact .argument hs hp
      · obtain ⟨k, hk, he⟩ := List.mem_map.mp h
        cases he
        exact .keyword hs hk
    · next g hs =>
      obtain h | h := List.mem_append.mp h
      · obtain ⟨a, ha, he⟩ := List.mem_map.mp h
        cases he
        obtain ⟨slot, hslot, ha⟩ := List.mem_flatMap.mp ha
        cases slot with
        | value b => exact .bound hs (List.mem_singleton.mp ha ▸ hslot)
        | _ => cases ha
      · obtain ⟨a, ha, he⟩ := List.mem_map.mp h
        cases he
        exact .spare hs ha
  · rw [descents_of_site?_eq_none he] at h
    obtain ⟨c', hc, hp⟩ := List.mem_map.mp h
    cases hp
    exact .child he (mem_children_of_taken hc)

variable (signatures className)

namespace Expr

def visits (m : Mode) (e : Expr) : List (Mode × Expr) :=
  (m, e) :: (e.descents signatures className m).attach.flatMap fun ⟨p, _⟩ => visits p.1 p.2
termination_by sizeOf e
decreasing_by exact (descends_of_mem ‹_›).sizeOf_lt

/-- The calls that are lowered when an expression is, those in default values left out. -/
def charged (m : Mode) (e : Expr) : List (CallSite Expr) :=
  (e.visits signatures className m).filterMap fun v => v.2.site?

end Expr

variable {signatures className}

namespace Expr

theorem visits_eq (m : Mode) (e : Expr) : e.visits signatures className m = (m, e) ::
    (e.descents signatures className m).flatMap fun p => p.2.visits signatures className p.1 := by
  rw [visits]
  congr 1
  conv_rhs => rw [← List.attach_map_subtype_val (e.descents signatures className m), List.flatMap_map]

theorem charged_eq (m : Mode) (e : Expr) : e.charged signatures className m = e.site?.toList ++
    (e.descents signatures className m).flatMap fun p => p.2.charged signatures className p.1 := by
  rw [charged, visits_eq, List.filterMap_cons, List.filterMap_flatMap]
  cases e.site? <;> rfl

theorem charged_of_site?_eq_none {e : Expr} (he : e.site? = none) (m : Mode) :
    e.charged signatures className m =
      (e.taken m).flatMap (charged signatures className (m.below e)) := by
  rw [charged_eq, he, descents_of_site?_eq_none he, List.flatMap_map]
  rfl

theorem charged_site (m : Mode) (s : CallSite Expr) : (Expr.call s).charged signatures className m =
    s :: ((Expr.call s).descents signatures className m).flatMap
      fun p => p.2.charged signatures className p.1 :=
  charged_eq m _

theorem charged_call (m m' : Mode) (s : CallSite Expr) :
    (Expr.call s).charged signatures className m = (Expr.call s).charged signatures className m' := by
  rw [charged_site, charged_site]
  rfl

theorem innerCalls_eq (e : Expr) : e.innerCalls = e.children.flatMap outerCalls := by
  rw [innerCalls]
  conv_rhs => rw [← List.attach_map_subtype_val e.children, List.flatMap_map]
  congr 1
  funext c
  obtain ⟨c, hc⟩ := c
  cases c <;> rfl

theorem charged_part (e : Expr) : e.charged signatures className .part =
    e.outerCalls.flatMap fun s => (Expr.call s).charged signatures className .part := by
  obtain ⟨s, rfl⟩ | he := e.eq_call_or_site?_eq_none
  · rw [outerCalls, List.flatMap_singleton]
  have ih : e.children.flatMap (charged signatures className .part) =
      e.innerCalls.flatMap fun s => (Expr.call s).charged signatures className .part := by
    rw [innerCalls_eq, List.flatMap_assoc]
    exact List.flatMap_congr fun c _ => charged_part c
  rw [charged_of_site?_eq_none he]
  cases e with
  | call s => cases he
  | lambda line parameters body => rfl
  | _ => exact ih
termination_by sizeOf e
decreasing_by exact sizeOf_child e c ‹_›

theorem charged_inside {e : Expr} (he : e.site? = none) {m : Mode} (hb : m.below e = .part)
    (ht : e.taken m = e.children) : e.charged signatures className m =
      e.innerCalls.flatMap fun s => (Expr.call s).charged signatures className .part := by
  rw [charged_of_site?_eq_none he, hb, ht, innerCalls_eq, List.flatMap_assoc]
  exact List.flatMap_congr fun c _ => charged_part c

theorem charged_leaf {e : Expr} (he : e.site? = none) {m : Mode} (ht : e.taken m = []) :
    e.charged signatures className m = [] := by
  rw [charged_of_site?_eq_none he, ht]
  rfl

theorem charged_operation {op : BinaryOperator} (hop : op.evaluated?.isSome) (line : Nat)
    (left right : Expr) : (binary line op left right).charged signatures className .value =
      left.charged signatures className .value ++ right.charged signatures className .value := by
  have hbelow : Mode.below .value (binary line op left right) = .value := if_pos ⟨rfl, hop⟩
  rw [charged_of_site?_eq_none rfl, hbelow]
  simp [taken, children]

theorem charged_not (line : Nat) (operand : Expr) :
    (unary line .not operand).charged signatures className .value =
      operand.charged signatures className .value := by
  rw [charged_of_site?_eq_none rfl]
  exact List.append_nil _

theorem charged_negated (line line' : Nat) (v : Value) (spelling : Spelling) :
    (unary line .minus (.constant line' v spelling)).charged signatures className .value = [] := by
  rw [charged_of_site?_eq_none rfl]
  exact (List.append_nil _).trans (charged_leaf rfl rfl)

theorem charged_junction (line : Nat) (op : Junction) (values : List Expr) :
    (junction line op values).charged signatures className .value =
      values.flatMap (charged signatures className .value) :=
  charged_of_site?_eq_none rfl .value

/-- The middle operands of a chain are charged twice. -/
theorem charged_compare (line : Nat) (left : Expr) (rest : List (Comparand Expr)) :
    (compare line left rest).charged signatures className .value =
      (comparisonSteps left rest).flatMap fun p =>
        p.1.charged signatures className .value ++ p.2.2.charged signatures className .value := by
  rw [charged_of_site?_eq_none rfl, taken, if_pos rfl, List.flatMap_assoc]
  simp [Mode.below, isCombined]

theorem charged_rest {e : Expr} (he : e.site? = none) (hc : e.isCombined = false) :
    e.charged signatures className .value =
      e.innerCalls.flatMap fun s => (Expr.call s).charged signatures className .part := by
  have htaken : e.taken .value = e.children := by
    cases e with
    | compare line left rest => cases hc
    | _ => rfl
  exact charged_inside he (if_neg fun h => Bool.eq_false_iff.mp hc h.2) htaken

theorem holds_of_mem_visits {v : Mode × Expr} {m : Mode} {e : Expr}
    (h : v ∈ e.visits signatures className m) : e.Holds v.2 := by
  rw [visits_eq] at h
  obtain rfl | h := List.mem_cons.mp h
  · exact .refl
  · obtain ⟨p, hp, hv⟩ := List.mem_flatMap.mp h
    have hlt := (descends_of_mem hp).sizeOf_lt
    exact (descends_of_mem hp).holds.trans (holds_of_mem_visits hv)
termination_by sizeOf e
decreasing_by exact hlt

theorem Absent.tally_charged {o : Origin} {e : Expr} (h : e.Absent o) (m : Mode) :
    tally o (e.charged signatures className m) = 0 := by
  refine List.count_eq_zero.mpr fun hm => ?_
  obtain ⟨s, hs, ho⟩ := List.mem_map.mp hm
  obtain ⟨v, hv, hsite⟩ := List.mem_filterMap.mp hs
  obtain ⟨t, ht⟩ | hnone := v.2.eq_call_or_site?_eq_none
  · rw [ht] at hsite
    cases hsite
    exact h s (ht ▸ holds_of_mem_visits hv) ho
  · rw [hnone] at hsite
    cases hsite

theorem charged_spareCalls {n : Nat} (e : { c : Expr // sizeOf c < n }) :
    ((spareCalls e).flatMap fun s => (Expr.call s.1).charged signatures className .part) =
      e.1.charged signatures className .spare := by
  obtain ⟨e, he⟩ := e
  obtain ⟨s, rfl⟩ | hnone := e.eq_call_or_site?_eq_none
  · exact (List.flatMap_singleton _ _).trans (charged_call _ _ s)
  have hspare : (spareCalls ⟨e, he⟩).map Subtype.val = e.innerCalls := by
    have hval : (e.innerCalls.attach.map fun s => s.1) = e.innerCalls :=
      List.attach_map_subtype_val e.innerCalls
    cases e with
    | call s => cases hnone
    | _ => simpa only [spareCalls, List.map_map] using! hval
  have htaken : e.taken .spare = e.children := by
    cases e <;> rfl
  rw [charged_inside hnone rfl htaken, ← hspare, List.flatMap_map]

end Expr

end Visits

end Source

namespace Draft

mutual

def origins : Draft → List Source.Origin
  | .block _ statements => originsList statements
  | .reference _ _ _ | .literal _ _ _ | .shared _ => []
  | .binary _ _ left right => originsOption left ++ originsOption right
  | .ret _ value => originsOption value
  | .branch _ condition thenBranch elseBranch =>
    originsOption condition ++ originsOption thenBranch ++ originsOption elseBranch
  | .call line name arguments _ => (line, name) :: originsList arguments
  | .function _ _ _ parameters body _ => originsList parameters ++ body.origins
  | .labelled _ draft => draft.origins
termination_by structural d => d

def originsList : List Draft → List Source.Origin
  | [] => []
  | d :: ds => d.origins ++ originsList ds
termination_by structural ds => ds

def originsOption : Option Draft → List Source.Origin
  | none => []
  | some d => d.origins
termination_by structural d => d

end

theorem originsList_append (ds es : List Draft) :
    originsList (ds ++ es) = originsList ds ++ originsList es := by
  induction ds with
  | nil => rfl
  | cons d ds ih => rw [List.cons_append, originsList, originsList, ih, List.append_assoc]

theorem originsList_toList (d : Option Draft) : originsList d.toList = originsOption d := by
  cases d with
  | none => rfl
  | some d => exact List.append_nil _

theorem originsList_eq_flatMap (ds : List Draft) : originsList ds = ds.flatMap origins := by
  induction ds with
  | nil => rfl
  | cons d ds ih => rw [originsList, List.flatMap_cons, ih]

theorem originsList_flatMap_toList (ds : List (Option Draft)) :
    originsList (ds.flatMap Option.toList) = ds.flatMap originsOption := by
  induction ds with
  | nil => rfl
  | cons d ds ih =>
    rw [List.flatMap_cons, originsList_append, originsList_toList, ih, List.flatMap_cons]

end Draft

namespace Artifact

def origin? : Artifact → Option Source.Origin
  | .call info name _ _ => some (info.line, name)
  | _ => none

def origins (a : Artifact) : List Source.Origin := a.walk.filterMap origin?

theorem origins_eq (a : Artifact) :
    a.origins = a.origin?.toList ++ a.children.flatMap origins := by
  rw [origins, walk_eq, List.filterMap_cons, walkFrom_eq_flatMap, List.filterMap_flatMap]
  cases a.origin? <;> rfl

end Artifact

namespace Forest

open Draft

mutual

theorem origins_build (d : Draft) (hd : d.isPlain = true) (F : Forest) :
    ((build d).run F).1.origins = d.origins := by
  rw [Artifact.origins_eq]
  cases d with
  | block line statements => exact origins_buildList statements hd F
  | reference line name parameter => rfl
  | literal line value place => rfl
  | binary line operator left right =>
    obtain ⟨hl, hr⟩ := Bool.and_eq_true_iff.mp hd
    rw [Draft.origins, ← origins_buildOption left hl F, ← origins_buildOption right hr _]
    exact List.flatMap_append
  | ret line value => exact origins_buildOption value hd F
  | branch line condition thenBranch elseBranch =>
    obtain ⟨hct, he⟩ := Bool.and_eq_true_iff.mp hd
    obtain ⟨hc, ht⟩ := Bool.and_eq_true_iff.mp hct
    rw [Draft.origins, ← origins_buildOption condition hc F, ← origins_buildOption thenBranch ht _,
      ← origins_buildOption elseBranch he _, ← List.flatMap_append, ← List.flatMap_append]
    rfl
  | call line name arguments target =>
    exact congrArg ((line, name) :: ·) (origins_buildList arguments hd F)
  | function line name qualified parameters body key => cases hd
  | labelled label draft =>
    rw [← Artifact.origins_eq]
    exact origins_build draft hd F
  | «shared» label => cases hd
termination_by structural d

theorem origins_buildList (ds : List Draft) (hd : Draft.isPlainList ds = true) (F : Forest) :
    ((buildList ds).run F).1.flatMap Artifact.origins = originsList ds := by
  cases ds with
  | nil => rfl
  | cons d ds =>
    obtain ⟨hd, hds⟩ := Bool.and_eq_true_iff.mp hd
    rw [originsList, ← origins_build d hd F, ← origins_buildList ds hds _]
    exact List.flatMap_cons
termination_by structural ds

theorem origins_buildOption (d : Option Draft) (hd : Draft.isPlainOption d = true) (F : Forest) :
    ((buildOption d).run F).1.toList.flatMap Artifact.origins = originsOption d := by
  cases d with
  | none => rfl
  | some d => exact (List.flatMap_singleton _ _).trans (origins_build d hd F)
termination_by structural d

end

theorem origins_build_function {d : Draft} (hd : d.isPlainFunction = true) (F : Forest) :
    ((build d).run F).1.origins = d.origins := by
  cases d with
  | function line name qualified parameters body key =>
    obtain ⟨hp, hb⟩ := Bool.and_eq_true_iff.mp hd
    rw [Artifact.origins_eq, Draft.origins, ← origins_buildList parameters hp F,
      ← origins_build body hb _]
    change List.flatMap Artifact.origins (_ ++ [_]) = _
    rw [List.flatMap_append, List.flatMap_singleton]
    rfl
  | _ => cases hd

end Forest

namespace Source

open Draft (originsList originsOption)

variable {signatures : OrderedMap String Signature} {o : Origin}

theorem count_flatMap {α β : Type} {f : α → List (CallSite Expr)} {g : β → List Origin} {as : List α}
    {bs : List β} (h : List.Forall₂ (fun a b => (g b).count o = tally o (f a)) as bs) :
    (bs.flatMap g).count o = tally o (as.flatMap f) := by
  induction h with
  | nil => rfl
  | cons ha _ ih =>
    rw [List.flatMap_cons, List.count_append, List.flatMap_cons, tally_append, ha, ih]

theorem count_originsList {α : Type} {f : α → List (CallSite Expr)} {as : List α} {ds : List Draft}
    (h : List.Forall₂ (fun a d => d.origins.count o = tally o (f a)) as ds) :
    (originsList ds).count o = tally o (as.flatMap f) := by
  rw [Draft.originsList_eq_flatMap, count_flatMap h]

theorem count_foldDrafts {α : Type} {f : α → List (CallSite Expr)} {as : List α}
    {ds : List (Option Draft)} (line : Nat) (operator : String)
    (h : List.Forall₂ (fun a d => (originsOption d).count o = tally o (f a)) as ds) :
    (originsOption (foldDrafts line operator ds)).count o = tally o (as.flatMap f) := by
  have hfold (d : Option Draft) {as : List α} {ds : List (Option Draft)}
      (h : List.Forall₂ (fun a d => (originsOption d).count o = tally o (f a)) as ds) :
      (originsOption (ds.foldl (fun l r => some (.binary (some line) operator l r)) d)).count o =
        (originsOption d).count o + tally o (as.flatMap f) := by
    induction h generalizing d with
    | nil => rfl
    | cons ha _ ih =>
      rw [List.foldl_cons, ih, originsOption, Draft.origins, List.count_append, List.flatMap_cons,
        tally_append, ha, Nat.add_assoc]
  cases h with
  | nil => rfl
  | cons ha h => rw [foldDrafts, hfold _ h, List.flatMap_cons, tally_append, ha]

theorem originsOption_gather (line : Nat) (ds : List Draft) :
    originsOption (gather line ds) = originsList ds := by
  match ds with
  | [] => rfl
  | [d] => exact (List.append_nil _).symm
  | d :: e :: ds => rfl

theorem count_call (s : CallSite Expr) (arguments : List Draft) (target : Option String) :
    (Draft.call (some s.line) (some (calleeText s.function)) arguments target).origins.count o =
      (originsList arguments).count o + if s.origin = o then 1 else 0 := by
  change (s.origin :: originsList arguments).count o = _
  by_cases h : s.origin = o
  · rw [if_pos h, h, List.count_cons_self]
  · rw [if_neg h, List.count_cons_of_ne h]
    rfl

def OutsideDefaults (signatures : OrderedMap String Signature) (o : Origin) : Prop :=
  ∀ g ∈ signatures.values, ∀ e ∈ g.defaults.values, e.Absent o

theorem isCombined_eq_false {e : Expr} (hcompare : ∀ line left rest, e ≠ .compare line left rest)
    (hbinary : ∀ line op left right, e ≠ .binary line op left right)
    (hjunction : ∀ line op values, e ≠ .junction line op values)
    (hnot : ∀ line operand, e ≠ .unary line .not operand) : e.isCombined = false := by
  cases e with
  | compare line left rest => exact (hcompare line left rest rfl).elim
  | binary line op left right => exact (hbinary line op left right rfl).elim
  | junction line op values => exact (hjunction line op values rfl).elim
  | unary line op operand =>
    cases op with
    | not => exact (hnot line operand rfl).elim
    | _ => rfl
  | _ => rfl

section CallSite

variable {scope : Scope} {s : CallSite Expr}

theorem count_unresolved (hs : s.signature? signatures scope.className = none) {ps ks : List Draft}
    (hps : List.Forall₂ (fun p d => d.origins.count o =
      tally o (p.value.1.charged signatures scope.className .value)) s.passed ps)
    (hks : List.Forall₂ (fun k d => d.origins.count o =
      tally o (k.value.1.charged signatures scope.className .value)) s.named ks)
    (target : Option String) :
    (Draft.call (some s.line) (some (calleeText s.function)) (ps ++ ks) target).origins.count o =
      tally o ((Expr.call s).charged signatures scope.className .part) := by
  rw [count_call, Draft.originsList_append, List.count_append, count_originsList hps,
    count_originsList hks, Expr.charged_site, tally_cons, CallSite.flatMap_descents_none hs,
    tally_append]

theorem count_resolved {signature : Signature}
    (hs : s.signature? signatures scope.className = some signature) {bound spare : List Draft}
    (hbound : List.Forall₂ (fun slot d => d.origins.count o =
      tally o (slot.values.flatMap (·.1.charged signatures scope.className .value)))
      (Binding.make signature s.passed s.named).slots bound)
    (hspare : List.Forall₂ (fun c d => d.origins.count o =
      tally o ((Expr.call c.1).charged signatures scope.className .part))
      ((Binding.make signature s.passed s.named).spare.flatMap spareCalls) spare)
    (target : Option String) :
    (Draft.call (some s.line) (some (calleeText s.function)) (bound ++ spare) target).origins.count o =
      tally o ((Expr.call s).charged signatures scope.className .part) := by
  rw [count_call, Draft.originsList_append, List.count_append, count_originsList hbound,
    count_originsList hspare, Expr.charged_site, tally_cons, CallSite.flatMap_descents_some hs,
    tally_append, List.flatMap_assoc]
  simp only [Expr.charged_spareCalls]

/-- The default values that a call puts in add nothing. -/
theorem count_lowerCall (hd : OutsideDefaults signatures o) {level : Nat} {signature : Signature}
    (hk : (targetKey? signatures scope s.function).bind signatures.get? = some signature)
    (ihe : ∀ e : { c : Expr // sizeOf c < sizeOf s },
      Meets (fun _ => True) (lowerArgument signatures level scope e.1) fun d =>
        d.origins.count o = tally o (e.1.charged signatures scope.className .value))
    (ihd : ∀ name l e, level = l + 1 → signature.defaults.get? name = some e →
      Meets (fun _ => True) (lowerArgument signatures l {} e) fun d =>
        d.origins.count o = tally o (e.charged signatures none .value))
    (ihc : ∀ c : { c : CallSite Expr // sizeOf c < sizeOf s },
      Meets (fun _ => True) (lowerCall signatures level scope c.1) fun d =>
        d.origins.count o = tally o ((Expr.call c.1).charged signatures scope.className .part)) :
    Meets (fun _ => True) (lowerCall signatures level scope s) fun d =>
      d.origins.count o = tally o ((Expr.call s).charged signatures scope.className .part) := by
  obtain ⟨k, hkey, hget⟩ := Option.bind_eq_some_iff.mp hk
  have hslots := (CallSite.make_from signature s).1
  rw [lowerCall]
  simp only [hkey, Option.bind_some, hget]
  refine meets_bind (meets_mapM_forall₂ (R := fun slot d => d.origins.count o =
    tally o (slot.values.flatMap (·.1.charged signatures scope.className .value)))
    fun slot hslot => ?_) fun bound hbound => ?_
  · cases slot with
    | value e => exact (ihe e).mono fun d hd => by simpa [Slot.values] using hd
    | unknown name => exact meets_pure rfl
    | default name =>
      obtain ⟨e, he⟩ := OrderedMap.get?_of_contains (hslots _ hslot)
      cases level with
      | zero => exact meets_error trivial
      | succ level =>
        have habsent : e.Absent o := hd signature (OrderedMap.mem_values_of_get? hget) e
          (OrderedMap.mem_values_of_get? he)
        simp only [he]
        refine (ihd name level e rfl he).mono fun d hd => ?_
        rw [hd, habsent.tally_charged]
        rfl
  · exact meets_bind (meets_mapM_forall₂ fun c _ => ihc c) fun spare hspare =>
      meets_pure (count_resolved hk hbound hspare _)

end CallSite

theorem count_lowered (hd : OutsideDefaults signatures o) :
    (∀ level scope e, Meets (fun _ => True) (lowerExpr signatures level scope e)
      fun d => (originsOption d).count o = tally o (e.charged signatures scope.className .value)) ∧
    (∀ level scope e, Meets (fun _ => True) (lowerNested signatures level scope e)
      fun d => (originsOption d).count o = tally o (e.innerCalls.flatMap
        fun s => (Expr.call s).charged signatures scope.className .part)) ∧
    (∀ level scope s, Meets (fun _ => True) (lowerCall signatures level scope s)
      fun d => d.origins.count o = tally o ((Expr.call s).charged signatures scope.className .part)) ∧
    ∀ level scope e, Meets (fun _ => True) (lowerArgument signatures level scope e)
      fun d => d.origins.count o = tally o (e.charged signatures scope.className .value) := by
  refine lowerExpr.mutual_induct_unfolding signatures
    (fun level scope e r => Meets (fun _ => True) r fun d => (originsOption d).count o =
      tally o (e.charged signatures scope.className .value))
    (fun level scope e r => Meets (fun _ => True) r fun d => (originsOption d).count o =
      tally o (e.innerCalls.flatMap fun s => (Expr.call s).charged signatures scope.className .part))
    (fun level scope s r => Meets (fun _ => True) r fun d => d.origins.count o =
      tally o ((Expr.call s).charged signatures scope.className .part))
    (fun level scope e r => Meets (fun _ => True) r fun d => d.origins.count o =
      tally o (e.charged signatures scope.className .value))
    ?constant ?constantName ?name ?call ?compare ?operation ?bitwise ?junction ?not ?negative
    ?noNumber ?minus ?other ?nested ?unresolved ?resolved ?argument
  case constant =>
    intro level scope line v spelling
    rw [Expr.charged_leaf rfl rfl]
    rfl
  case constantName =>
    intro level scope line id use v hv
    rw [Expr.charged_leaf rfl rfl]
    rfl
  case name =>
    intro level scope line id use hv
    rw [Expr.charged_leaf rfl rfl]
    rfl
  case call =>
    intro level scope site ih
    refine meets_bind ih fun d hd => meets_pure ?_
    rw [Expr.charged_call .value .part]
    exact hd
  case compare =>
    intro level scope line left rest ih
    refine meets_bind (meets_mapM_forall₂ (R := fun p d => (originsOption d).count o =
      tally o (p.1.1.charged signatures scope.className .value ++
        p.2.2.1.charged signatures scope.className .value)) fun p _ => ?_) fun ds hds => ?_
    · obtain ⟨l, op, r⟩ := p
      refine meets_bind (ih l) fun l' hl' => meets_bind (ih r) fun r' hr' => meets_pure ?_
      rw [originsOption, Draft.origins, List.count_append, tally_append, hl', hr']
    · refine meets_pure ?_
      rw [count_foldDrafts line "and" hds, Expr.charged_compare, ← map_comparisonParts line left rest,
        List.flatMap_map]
  case operation =>
    intro level scope line op left right word hw ihl ihr
    refine meets_bind ihl fun l hl => meets_bind ihr fun r hr => meets_pure ?_
    rw [originsOption, Draft.origins, List.count_append, hl, hr,
      Expr.charged_operation (Option.isSome_of_mem hw), tally_append]
  case bitwise =>
    intro level scope line op left right hw ih
    have hrest : (Expr.binary line op left right).isCombined = false := by
      rw [Expr.isCombined, hw]
      rfl
    rw [Expr.charged_rest rfl hrest]
    exact ih
  case junction =>
    intro level scope line op values ih
    refine meets_bind (meets_mapM_forall₂ (R := fun v d => (originsOption d).count o =
      tally o (v.1.charged signatures scope.className .value)) fun v _ => ?_) fun ds hds => ?_
    · obtain ⟨v, hv⟩ := v
      exact ih v hv
    · refine meets_pure ?_
      rw [count_foldDrafts line op.text hds, Expr.charged_junction, ← List.flatMap_map,
        List.attach_map_subtype_val]
  case not =>
    intro level scope line operand ih
    refine meets_bind ih fun d hd => meets_pure ?_
    rw [originsOption, Draft.origins, List.count_append, hd, Expr.charged_not]
    rfl
  case negative =>
    intro level scope line line' v spelling w hw
    rw [Expr.charged_negated]
    rfl
  case noNumber =>
    intro level scope line line' v spelling hw
    rw [Expr.charged_negated]
    rfl
  case minus =>
    intro level scope line operand hne ih
    rw [Expr.charged_rest rfl rfl]
    exact ih
  case other =>
    intro level scope e _ _ hcall hcompare hbinary hjunction hnot _ ih
    obtain ⟨s, rfl⟩ | hs := e.eq_call_or_site?_eq_none
    · exact (hcall s rfl).elim
    rw [Expr.charged_rest hs (isCombined_eq_false hcompare hbinary hjunction hnot)]
    exact ih
  case nested =>
    intro level scope e ih
    refine meets_bind (meets_mapM_forall₂ (R := fun s d => d.origins.count o =
      tally o ((Expr.call s.1).charged signatures scope.className .part)) fun s _ => ?_) fun ds hds => ?_
    · obtain ⟨s, hm⟩ := s
      exact ih s hm
    · refine meets_pure ?_
      rw [originsOption_gather, count_originsList hds]
      rw [← List.flatMap_map Subtype.val (fun s => (Expr.call s).charged signatures scope.className .part),
        List.attach_map_subtype_val]
  case unresolved =>
    intro level scope s
    dsimp only
    intro hk ihp ihk
    simp only [targetKey?_eq_none hk]
    exact meets_bind (meets_mapM_forall₂ fun p _ => ihp p) fun ps hps =>
      meets_bind (meets_mapM_forall₂ fun k _ => ihk k) fun ks hks =>
        meets_pure (count_unresolved hk hps hks none)
  case resolved =>
    intro level scope s
    dsimp only
    intro signature hk ihe ihd ihc
    have hcall := count_lowerCall hd hk ihe (fun name l e hl he => by
      subst hl
      simpa only [he] using ihd name) ihc
    rw [lowerCall] at hcall
    simpa only [hk] using hcall
  case argument =>
    intro level scope e ih
    refine meets_bind ih fun d hd => ?_
    cases d with
    | some d => exact meets_pure hd
    | none =>
      have htext : Fails (fun _ => True) e.text := (Expr.fails_text e).widen fun _ _ => trivial
      exact meets_bind htext fun _ _ => meets_pure hd

end Source

end CallTime

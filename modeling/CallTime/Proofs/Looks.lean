import CallTime.Proofs.Charges

/-!
How arguments look.

A call can tell of an argument whether it is a parameter and what its value is, and in a program that
asks for the identity of objects also which object it is. Main statements: charges depend on the looks of
arguments only, and where the signature of a function settles the looks of the arguments in it, it settles
the charges.
-/

namespace CallTime

open Analysis

def Artifact.look (identity : Bool) (a : Artifact) : Bool × Reading :=
  (a.isParameter, a.closedValue.view identity)

open Artifact (look boundTo)

section Looks

variable {σ σ' : List Artifact} {identity : Bool}

theorem Signature.of_congr (h : σ'.map (look identity) = σ.map (look identity)) :
    Signature.of σ' = Signature.of σ := by
  have hlooks : ∀ σ : List Artifact,
      Signature.of σ = (σ.map (look identity)).mapM fun l => l.2.value := by
    intro σ
    induction σ with
    | nil => rfl
    | cons a σ ih =>
      rw [Signature.of, List.mapM_cons, List.map_cons, List.mapM_cons, ← ih, look, Reading.value_view]
      rfl
  rw [hlooks, hlooks, h]

theorem fullyResolved_congr (h : σ'.map (look identity) = σ.map (look identity)) :
    fullyResolved σ' = fullyResolved σ := by
  have hlooks : ∀ σ : List Artifact, fullyResolved σ = !(σ.map (look identity)).any Prod.fst := by
    intro σ
    rw [List.any_map]
    rfl
  rw [hlooks, hlooks, h]

theorem argumentAt_looks (h : σ'.map (look identity) = σ.map (look identity)) (index : Int) :
    (argumentAt σ' index).map (Option.map (look identity)) =
      (argumentAt σ index).map (Option.map (look identity)) := by
  rw [← argumentAt_map, ← argumentAt_map, h]

theorem boundTo_congr {info : Info} (h : σ'.map (look identity) = σ.map (look identity))
    (hσ : ∀ a ∈ σ, a.id ≠ info.id) (hσ' : ∀ a ∈ σ', a.id ≠ info.id) (index : Option Int) :
    (boundTo σ' info index).view identity = (boundTo σ info index).view identity := by
  have hlooks : ∀ σ : List Artifact, (∀ a ∈ σ, a.id ≠ info.id) → ∀ index,
      (boundTo σ info (some index)).view identity =
        (argumentAt σ index).map (Option.map (look identity)) >>= fun found =>
          (found.map Prod.snd).getD (.ok none) := by
    intro σ hσ index
    rw [boundTo]
    rcases hat : argumentAt σ index with e | _ | a
    · rfl
    · rfl
    · exact congrArg (Reading.view identity) (if_neg (hσ a (mem_of_argumentAt hat)))
  cases index with
  | none => rfl
  | some index => rw [hlooks σ hσ, hlooks σ' hσ', argumentAt_looks h]

theorem mapM_looks {as bs : List Artifact} {p q : Artifact → Except Fault Artifact}
    (h : ∀ a ∈ as, ∀ b, p a = .ok b → ∃ b', q a = .ok b' ∧ b'.look identity = b.look identity)
    (hbs : as.mapM p = .ok bs) :
    ∃ bs', as.mapM q = .ok bs' ∧ bs'.map (look identity) = bs.map (look identity) := by
  induction as generalizing bs with
  | nil =>
    cases hbs
    exact ⟨[], rfl, rfl⟩
  | cons a as ih =>
    rw [List.mapM_cons] at hbs ⊢
    obtain ⟨b, hb, hbs⟩ := ok_of_bind hbs
    obtain ⟨bs, hrest, hbs⟩ := ok_of_bind hbs
    cases hbs
    obtain ⟨b', hb', hlook⟩ := h a List.mem_cons_self b hb
    obtain ⟨bs', hrest', hlooks⟩ := ih (fun c hc => h c (List.mem_cons_of_mem a hc)) hrest
    rw [hb', hrest']
    exact ⟨b' :: bs', rfl, by rw [List.map_cons, List.map_cons, hlook, hlooks]⟩

theorem Path.candidates_congr {paths : List Path}
    (h : ∀ p ∈ paths, ∀ c ∈ p.conditions, Artifact.branchPossible (conditionOf c.1) c.2 σ' =
      Artifact.branchPossible (conditionOf c.1) c.2 σ) : candidates σ' paths = candidates σ paths := by
  have hadmits : ∀ cs : List (Artifact × Bool), (∀ c ∈ cs, Artifact.branchPossible (conditionOf c.1)
      c.2 σ' = Artifact.branchPossible (conditionOf c.1) c.2 σ) → admits σ' cs = admits σ cs := by
    intro cs hcs
    induction cs with
    | nil => rfl
    | cons c cs ih =>
      rw [admits, admits, hcs c List.mem_cons_self, ih fun d hd => hcs d (List.mem_cons_of_mem c hd)]
  induction paths with
  | nil => rfl
  | cons p paths ih =>
    rw [candidates, candidates, hadmits _ (h p List.mem_cons_self),
      ih fun q hq => h q (List.mem_cons_of_mem p hq)]

end Looks

namespace Program

open Relation

variable {P : Program} {durations : Durations} {f g k F : Function} {a : Artifact}
  {ρ : Option (List Artifact)} {σ σ' τ : List Artifact} {c : Artifact → Cost}

def asksIdentity (P : Program) : Bool := !P.ByValue

/-- How an argument looks to the conditions of the program. -/
abbrev look (P : Program) : Artifact → Bool × Reading := Artifact.look P.asksIdentity

theorem Has.byValue (hg : P.Has g) {branch : Artifact} (hb : branch ∈ body g) :
    P.asksIdentity = true ∨
      ∀ n ∈ Artifact.walkFrom (Path.conditionOf branch).toList, n.asksIdentity = false := by
  by_cases h : P.ByValue
  · right
    obtain ⟨F, hF, hgF⟩ := hg.top
    have hbF := walk_subset hgF (mem_body hb)
    rw [walk_function, List.mem_cons] at hbF
    obtain rfl | hbF := hbF
    · have hnone : Path.conditionOf F.artifact = none := rfl
      simp [hnone, Artifact.walkFrom]
    · exact h F hF branch hbF
  · left
    simpa [asksIdentity] using h

/-- The arguments are none of the nodes that `g` leads to or holds. -/
def Apart (P : Program) (σ : List Artifact) (g : Function) : Prop :=
  ∀ a ∈ σ, ∀ b, P.forest.Below g b → a.id ≠ b.id

theorem argumentsUnder_looks {forest : Forest} (h : σ'.map P.look = σ.map P.look)
    (hτ : argumentsUnder forest (some σ) a = .ok τ) :
    ∃ τ', argumentsUnder forest (some σ') a = .ok τ' ∧ τ'.map P.look = τ.map P.look := by
  refine mapM_looks (fun b _ d hd => ?_) hτ
  split at hd
  · next info name index _ =>
    split at hd
    · next he =>
      obtain ⟨found, hat, hd⟩ := ok_of_bind hd
      cases hd
      have hlooks := argumentAt_looks h index
      rw [hat] at hlooks
      simp only [if_pos he]
      rcases hat' : argumentAt σ' index with e | found' <;> rw [hat'] at hlooks
      · cases hlooks
      · have hfound : found'.map P.look = found.map P.look := Except.ok.inj hlooks
        refine ⟨_, rfl, ?_⟩
        cases found <;> cases found' <;> first | rfl | cases hfound | exact Option.some.inj hfound
    · next he =>
      cases hd
      exact ⟨_, if_neg he, rfl⟩
  · cases hd
    exact ⟨_, rfl, rfl⟩

theorem mem_argumentsUnder {forest : Forest} (hτ : argumentsUnder forest ρ a = .ok τ) :
    ∀ b ∈ τ, b ∈ a.children ∨ ∃ σ, ρ = some σ ∧ b ∈ σ := by
  cases ρ with
  | none =>
    cases hτ
    exact fun b hb => .inl hb
  | some σ =>
    have hmem : ∀ {as bs : List Artifact} {p : Artifact → Except Fault Artifact}, as.mapM p = .ok bs →
        ∀ b ∈ bs, ∃ a ∈ as, p a = .ok b := by
      intro as
      induction as with
      | nil =>
        rintro bs p ⟨⟩ b hb
        cases hb
      | cons a as ih =>
        intro bs p h b hb
        rw [List.mapM_cons] at h
        obtain ⟨b', hb', h⟩ := ok_of_bind h
        obtain ⟨bs', hbs', h⟩ := ok_of_bind h
        cases h
        obtain rfl | hb := List.mem_cons.mp hb
        · exact ⟨a, List.mem_cons_self, hb'⟩
        · obtain ⟨a', ha', hp⟩ := ih hbs' b hb
          exact ⟨a', List.mem_cons_of_mem a ha', hp⟩
    intro b hb
    obtain ⟨d, hd, hp⟩ := hmem hτ b hb
    split at hp
    · split at hp
      · obtain ⟨found, hat, hp⟩ := ok_of_bind hp
        cases hp
        cases found with
        | none => exact .inl hd
        | some e => exact .inr ⟨σ, rfl, mem_of_argumentAt hat⟩
      · cases hp
        exact .inl hd
    · cases hp
      exact .inl hd

/-- Neither the arguments written at a call nor those handed through it lie where it leads to. -/
theorem Acyclic.apart (hP : P.Acyclic) (hf : P.Has f) (ha : a ∈ f.artifact.walk)
    (hg : P.forest.target? a = some g) (hρ : ∀ σ, ρ = some σ → P.Apart σ f)
    (hτ : argumentsUnder P.forest ρ a = .ok τ) : P.Apart τ g := by
  intro b hb d hd hid
  obtain hb | ⟨σ, rfl, hb⟩ := mem_argumentsUnder hτ b hb
  · obtain ⟨F, hF, hfF⟩ := hf.top
    have hbF : b ∈ F.artifact.walk := Artifact.mem_walk_children (walk_subset hfF ha) hb
    obtain rfl := eq_of_id_eq (mem_module hF hbF) (below_mem_module (has_of_target? hg) hd) hid
    exact hP.not_below hF (walk_subset hfF ha) hg hbF hd
  · exact hρ σ rfl b hb d (below_of_calls (calls_of_mem ha hg) hd) hid

theorem below_of_mem_body {b : Artifact} (hb : b ∈ body g) : P.forest.Below g b :=
  ⟨g, .refl, mem_body hb⟩

theorem Has.price_congr (hg : P.Has g) (h : σ'.map P.look = σ.map P.look) (hσ : P.Apart σ g)
    (hσ' : P.Apart σ' g) (c : Artifact → Cost) :
    price durations g σ' (P.timed g c) = price durations g σ (P.timed g c) := by
  have hcand : Path.candidates σ' (P.timed g c) = Path.candidates σ (P.timed g c) := by
    refine Path.candidates_congr fun q hq b hb => ?_
    obtain ⟨p, hp, d, rfl⟩ := Path.exists_timed_of_mem hq
    rw [Path.conditions_timed] at hb
    have hbranch := (hg.path_in p hp).conditions b hb
    refine Artifact.branchPossible_of_view (Artifact.view_valueOfOption_congr _ (hg.byValue hbranch)
      fun info name index hm => ?_) b.2
    have hbelow := below_of_mem_body (P := P) (mem_body_of_mem_condition hbranch hm)
    exact boundTo_congr h (fun a ha => hσ a ha _ hbelow) (fun a ha => hσ' a ha _ hbelow) index
  rw [price, price, expected, expected, fullyResolved_congr h, hcand]

theorem Charges.looks (hP : P.Acyclic) (h : P.Charges durations f ρ c) :
    P.Has f → ∀ σ, ρ = some σ → ∀ σ', σ'.map P.look = σ.map P.look → P.Apart σ f → P.Apart σ' f →
      P.Charges durations f (some σ') c := by
  induction h with
  | @intro f ρ c arguments inner valued nested free resolved callee cost ih =>
    rintro hf σ rfl σ' h hσ hσ'
    refine charges_iff.mpr ⟨⟨?_, nested⟩, fun a ha => ?_⟩
    · obtain ⟨τ, hτ⟩ := valued
      exact ⟨τ, (Signature.of_congr h).trans hτ⟩
    · cases hg : P.forest.target? a with
      | none => exact (charged_of_none hg).mpr (free a ha hg)
      | some g =>
        have hr := resolved a ha g hg
        have hcharges := callee a ha g hg
        rw [charged_of_some hg]
        unfold standing at hr ⊢
        split at hr
        · next he =>
          obtain ⟨τ, hτ, hlooks⟩ := argumentsUnder_looks h hr
          have hapart := hP.apart hf (mem_body ha) hg (fun _ h => by cases h; exact hσ) hr
          have hapart' := hP.apart hf (mem_body ha) hg (fun _ h => by cases h; exact hσ') hτ
          refine ⟨τ, inner a, by rw [if_pos he]; exact hτ,
            ih a ha g hg (has_of_target? hg) _ rfl τ hlooks hapart hapart', ?_⟩
          rw [(has_of_target? hg).price_congr hlooks hapart hapart']
          exact cost a ha g hg
        · next he =>
          exact ⟨_, _, by rw [if_neg he]; exact hr, hcharges, cost a ha g hg⟩

/-- The arguments that can reach a function: nothing, and those of any call in a function that such
arguments reach. -/
inductive Comes (P : Program) : Function → Option (List Artifact) → Prop
  | root {f : Function} (hf : P.Has f) : Comes P f none
  | call {f g : Function} {ρ : Option (List Artifact)} {a : Artifact} {σ : List Artifact}
      (h : Comes P f ρ) (ha : f.Owns a) (hg : P.forest.target? a = some g)
      (hσ : argumentsUnder P.forest ρ a = .ok σ) : Comes P g (some σ)

theorem Comes.has (h : P.Comes f ρ) : P.Has f := by
  cases h with
  | root hf => exact hf
  | call _ _ hg _ => exact has_of_target? hg

theorem Comes.mem (h : P.Comes f (some σ)) : f ∈ P.functions := by
  cases h with
  | call _ _ hg _ => exact mem_of_target? hg

theorem Comes.apart (hP : P.Acyclic) (h : P.Comes f ρ) : ∀ σ, ρ = some σ → P.Apart σ f := by
  induction h with
  | root => exact fun _ h => by cases h
  | call h ha hg hσ ih =>
    rintro _ ⟨⟩
    exact hP.apart h.has (mem_body ha.mem_walkFrom) hg ih hσ

/-- Arguments of a function with signatures that agree look alike to the functions it calls. -/
def Discerning (P : Program) : Prop :=
  ∀ g ρ ρ' τ τ', P.Comes g ρ → P.Comes g ρ' → Signature.of (ρ.getD g.parameters) = .ok τ →
    Signature.of (ρ'.getD g.parameters) = .ok τ' → τ.agrees τ' = true →
    ∀ a, g.Owns a → ∀ k, P.forest.target? a = some k → ∀ σ, argumentsUnder P.forest ρ a = .ok σ →
      ∃ σ', argumentsUnder P.forest ρ' a = .ok σ' ∧ σ'.map P.look = σ.map P.look

theorem Has.standing_cases (hf : P.Has f) (ha : a ∈ body f) :
    (f.Owns a ∧ ∀ ρ, P.standing f ρ a = ρ) ∨ ∀ ρ, P.standing f ρ a = none := by
  obtain ⟨o, ho, hown⟩ := exists_owner ha
  rw [walk_function, List.mem_cons] at ho
  obtain ho | ho := ho
  · obtain rfl := Function.artifact_injective ho
    exact .inl ⟨hown, fun ρ => hf.standing_owned hown ρ⟩
  · exact .inr fun ρ => hf.standing_nested ho hown.mem_walkFrom ρ

/-- In a discerning program what was worked out for some arguments holds for all with a signature that
agrees. -/
theorem Charges.transfer (hP : P.Acyclic) (hd : P.Discerning) {ρ' : Option (List Artifact)}
    {τ τ' : Signature} (h : P.Charges durations g ρ c) (hc : P.Comes g ρ) (hc' : P.Comes g ρ')
    (hτ : Signature.of (ρ.getD g.parameters) = .ok τ)
    (hτ' : Signature.of (ρ'.getD g.parameters) = .ok τ') (hagree : τ.agrees τ' = true) :
    P.Charges durations g ρ' c := by
  obtain ⟨valued, hcharged⟩ := charges_iff.mp h
  refine charges_iff.mpr ⟨⟨⟨τ', hτ'⟩, valued.nested⟩, fun a ha => ?_⟩
  have hca := hcharged a ha
  obtain ⟨hown, hstand⟩ | hstand := hc.has.standing_cases ha
  · rw [hstand] at hca ⊢
    cases hg : P.forest.target? a with
    | none => exact (charged_of_none hg).mpr ((charged_of_none hg).mp hca)
    | some k =>
      obtain ⟨σ, d, hσ, hcharges, hprice⟩ := (charged_of_some hg).mp hca
      obtain ⟨σ', hσ', hlooks⟩ := hd g ρ ρ' τ τ' hc hc' hτ hτ' hagree a hown k hg σ hσ
      have hapart := hP.apart hc.has (mem_body ha) hg (hc.apart hP) hσ
      have hapart' := hP.apart hc.has (mem_body ha) hg (hc'.apart hP) hσ'
      refine (charged_of_some hg).mpr ⟨σ', d, hσ',
        hcharges.looks hP (has_of_target? hg) σ rfl σ' hlooks hapart hapart', ?_⟩
      rw [(has_of_target? hg).price_congr hlooks hapart hapart']
      exact hprice
  · rw [hstand] at hca ⊢
    exact hca

open Artifact (under)

def lookOf : Option Value → Bool × Reading
  | some v => (false, .ok (some ⟨v, .made⟩))
  | none => (true, .ok none)

theorem look_of_constant {b : Artifact} (h : b.Constant) : b.look false = lookOf (under [] b) := by
  have hv := Artifact.closedValue_eq (.inl h)
  cases b with
  | literal => rfl
  | reference info name parameter =>
    cases parameter with
    | none => cases h
    | some index => exact Prod.ext rfl (Reading.view_of_value (s := .ok none) hv)
  | _ => cases h

theorem constant_replacement {outer : List Artifact} (ho : ∀ b ∈ outer, b.Constant) {b : Artifact}
    (hb : b.Constant) : (replacement outer b).Constant := by
  cases b with
  | reference info name parameter =>
    cases parameter with
    | none => cases hb
    | some index =>
      simp only [replacement]
      cases hv : outer[index.toNat]? with
      | none => exact hb
      | some d => exact ho d (List.mem_of_getElem? hv)
  | _ => exact hb

structure Constants (P : Program) : Prop where
  parameters : ∀ f, P.Has f → ∀ p ∈ f.parameters, p.Parameter
  arguments : ∀ a ∈ P.module.walk, a.isCall → ∀ b ∈ a.children, b.Constant

theorem Constants.of_flat (flat : ∀ f ∈ P.functions, ∀ b ∈ body f, b.isFunction = false)
    (parameters : ∀ f ∈ P.functions, ∀ p ∈ f.parameters, p.Parameter)
    (arguments : ∀ a ∈ P.module.walk, a.isCall → ∀ b ∈ a.children, b.Constant) : P.Constants where
  parameters f hf := by
    obtain ⟨F, hF, hfF⟩ := Has.top hf
    rw [walk_function, List.mem_cons] at hfF
    obtain hfF | hfF := hfF
    · exact Function.artifact_injective hfF ▸ parameters F hF
    · cases flat F hF _ hfF
  arguments := arguments

theorem argumentsUnder_constants (h : P.Constants) (hg : P.Has g) (ha : g.Owns a)
    (hcall : a.isCall = true) (hρ : ∀ σ, ρ = some σ → ∀ b ∈ σ, b.Constant) :
    ∃ σ, argumentsUnder P.forest ρ a = .ok σ ∧ (∀ b ∈ σ, b.Constant) ∧ σ.map (Artifact.look false) =
      a.children.map fun b => lookOf (under ((ρ.getD g.parameters).map (under [])) b) := by
  have hmem : a ∈ P.module.walk := mem_module_of_mem_walk hg (mem_body ha.mem_walkFrom)
  have hconst := h.arguments a hmem hcall
  cases ρ with
  | none =>
    refine ⟨a.children, rfl, hconst, List.map_congr_left fun b hb => ?_⟩
    have hunknown : ∀ v ∈ g.parameters.map (under []), v = none := by
      intro v hv
      obtain ⟨p, hp, rfl⟩ := List.mem_map.mp hv
      exact under_parameter (h.parameters g hg p hp)
    rw [look_of_constant (hconst b hb), Option.getD_none, under_unknown hunknown]
  | some outer =>
    have houter := hρ outer rfl
    refine ⟨a.children.map (replacement outer), mapM_eq_ok fun b hb => ?_, ?_, ?_⟩
    · have hbc := hconst b hb
      have hown : g.Owns b := .child ha (by cases a <;> first | rfl | cases hcall) hb
      cases b with
      | reference info name parameter =>
        cases parameter with
        | none => cases hbc
        | some index =>
          simp only [hg.enclosing? hown, hg.enclosing? ha, if_true, argumentAt_of_nonneg outer hbc]
          rfl
      | literal => rfl
      | _ => cases hbc
    · intro d hd
      obtain ⟨b, hb, rfl⟩ := List.mem_map.mp hd
      exact constant_replacement houter (hconst b hb)
    · rw [List.map_map]
      refine List.map_congr_left fun b hb => ?_
      rw [Function.comp_apply, look_of_constant (constant_replacement houter (hconst b hb)),
        under_replacement outer (hconst b hb)]
      rfl

theorem Comes.constant (h : P.Constants) (hc : P.Comes f ρ) : ∀ σ, ρ = some σ → ∀ b ∈ σ, b.Constant := by
  induction hc with
  | root => exact fun _ h => by cases h
  | @call f g ρ a σ hc ha hg hσ ih =>
    rintro _ ⟨⟩
    obtain ⟨σ', hσ', hconst, -⟩ := argumentsUnder_constants h hc.has ha (isCall_of_target? hg) ih
    cases hσ.symm.trans hσ'
    exact hconst

theorem simple_of_constant {b : Artifact} (h : b.Constant) {v : Value} (hv : under [] b = some v) :
    v.Simple := by
  cases b with
  | literal info value place =>
    cases hv
    exact h
  | reference info name parameter =>
    cases parameter with
    | none => cases h
    | some index => cases hv
  | _ => cases h

/-- A program whose calls are given constants and parameters only is discerning, unless it asks for the
identity of objects: equal constants may be two objects. -/
theorem Constants.discerning (h : P.Constants) (hvalue : P.ByValue) : P.Discerning := by
  have signature : ∀ {g ρ τ}, P.Comes g ρ → Signature.of (ρ.getD g.parameters) = .ok τ →
      τ = (ρ.getD g.parameters).map (under []) ∧ ∀ v, some v ∈ τ → v.Simple := by
    intro g ρ τ hc hτ
    have hargs : ∀ b ∈ ρ.getD g.parameters, b.Constant ∨ b.Parameter := by
      cases ρ with
      | none => exact fun b hb => .inr (h.parameters g hc.has b hb)
      | some σ => exact fun b hb => .inl (hc.constant h σ rfl b hb)
    cases (Signature.of_eq hargs).symm.trans hτ
    refine ⟨rfl, fun v hv => ?_⟩
    obtain ⟨b, hb, hbv⟩ := List.mem_map.mp hv
    obtain hb | hb := hargs b hb
    · exact simple_of_constant hb hbv
    · rw [under_parameter hb] at hbv
      cases hbv
  intro g ρ ρ' τ τ' hc hc' hτ hτ' hagree a ha k hk σ hσ
  obtain ⟨heq, hsimple⟩ := signature hc hτ
  have heq' := (signature hc' hτ').1
  have hcall := isCall_of_target? hk
  obtain ⟨σ₁, hσ₁, -, hlooks⟩ := argumentsUnder_constants h hc.has ha hcall (hc.constant h)
  obtain ⟨σ', hσ', -, hlooks'⟩ := argumentsUnder_constants h hc.has ha hcall (hc'.constant h)
  cases hσ.symm.trans hσ₁
  refine ⟨σ', hσ', ?_⟩
  have hlook : P.look = Artifact.look false := by simp [look, asksIdentity, hvalue]
  rw [hlook, hlooks, hlooks', ← heq, ← heq', Signature.eq_of_agrees hsimple hagree]

end Program

end CallTime

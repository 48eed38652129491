import Mathlib
import CallTime.Proofs.Completion
import CallTime.Proofs.Looks

/-!
Arguments are evaluated outside of the function that gets them.

A reference inside of an argument may carry the place of a parameter of another function. Main statement:
it never stands for an argument of the function that is called, and so conditions and candidate paths
depend on the values of the arguments only, whatever the arguments are made of. A condition with `is`
depends on which objects have these values too.
-/

namespace CallTime

open Artifact (boundTo)

namespace Artifact

/-- The references of the condition count their places from the front, and an argument that has the id
of a node of the condition is that node. -/
structure Legible (a : List Artifact) (condition : Option Artifact) : Prop where
  places : ∀ n ∈ walkFrom condition.toList, n.fromFront = true
  told : ∀ x ∈ a, ∀ n ∈ walkFrom condition.toList, x.id = n.id → x = n

def blind (_ : Info) (_ : Option Int) : Reading := .ok none

/-- The rule for references by which a parameter has the value of the argument at its place, and no
reference inside of the argument has one. -/
def sealedTo (a : List Artifact) (_ : Info) (parameter : Option Int) : Reading :=
  match parameter.bind fun index => a[index.toNat]? with
  | none => .ok none
  | some x => x.valueWith blind

variable {a b : List Artifact} {condition : Option Artifact} {identity : Bool}

theorem Legible.boundTo_eq (h : Legible a condition) {info : Info} {name : String} {index : Int}
    (hm : .reference info name (some index) ∈ walkFrom condition.toList) :
    boundTo a info (some index) = (a[index.toNat]?.map closedValue).getD (.ok none) := by
  have hi : 0 ≤ index := of_decide_eq_true (h.places _ hm)
  exact boundTo_of_told hi fun x hx hid => h.told x hx _ hm hid

/-- The arguments are the same objects, or have the same values. -/
def Alike (identity : Bool) (a b : List Artifact) : Prop :=
  List.Forall₂ (fun x y => x.closedValue.view identity = y.closedValue.view identity) a b

/-- Someone who is not told objects apart does not ask for their identity. -/
def Discreet (identity : Bool) (condition : Option Artifact) : Prop :=
  identity = true ∨ ∀ n ∈ walkFrom condition.toList, n.asksIdentity = false

theorem Alike.getElem? (h : Alike identity a b) (n : Nat) :
    ((a[n]?.map closedValue).getD (.ok none)).view identity =
      ((b[n]?.map closedValue).getD (.ok none)).view identity := by
  induction h generalizing n with
  | nil => rfl
  | cons hxy _ ih =>
    cases n with
    | zero => simpa using hxy
    | succ n => simpa using ih n

/-- Outside of a function no reference has a value. -/
theorem closedValue_eq_blind {x : Artifact} (hx : ∀ n ∈ x.walk, n.fromFront = true) :
    x.closedValue = x.valueWith blind := by
  apply valueWith_congr
  intro info name parameter hm
  cases parameter with
  | none => rfl
  | some index =>
    have hi : 0 ≤ index := of_decide_eq_true (hx _ hm)
    simp only [unbound, argumentAt_of_nonneg _ hi]
    rfl

theorem Alike.conditionValue (h : Alike identity a b) (hc : Discreet identity condition)
    (ha : Legible a condition) (hb : Legible b condition) :
    (conditionValue a condition).view identity = (conditionValue b condition).view identity := by
  apply view_valueOfOption_congr condition hc
  intro info name parameter hm
  cases parameter with
  | none => rfl
  | some index => rw [ha.boundTo_eq hm, hb.boundTo_eq hm, h.getElem?]

theorem conditionValue_eq_sealed (ha : Legible a condition)
    (hplaces : ∀ x ∈ a, ∀ n ∈ x.walk, n.fromFront = true) :
    conditionValue a condition = valueOfOption (sealedTo a) condition := by
  apply valueOfOption_congr
  intro info name parameter hm
  cases parameter with
  | none => rfl
  | some index =>
    rw [ha.boundTo_eq hm]
    cases hx : a[index.toNat]? with
    | none => simp [sealedTo, hx]
    | some x =>
      have hmem := List.mem_of_getElem? hx
      simpa [sealedTo, hx] using closedValue_eq_blind (hplaces x hmem)

end Artifact

namespace Path

open Artifact (Alike Discreet Legible conditionValue valueOfOption sealedTo)

variable {a b : List Artifact}

/-- Arguments that are the same objects give every condition the same object, or the same failure, and
allow the same paths. Where no condition asks for the identity of objects, arguments of equal values do so
for values. The value of a condition is the one it has when every reference inside of an argument, at any
depth, is unknown. -/
theorem evaluation_closed (identity : Bool) (h : Alike identity a b) :
    (∀ condition, Discreet identity condition → Legible a condition → Legible b condition →
      (conditionValue a condition).view identity = (conditionValue b condition).view identity) ∧
    (∀ paths : List Path,
      (∀ p ∈ paths, ∀ c ∈ p.conditions, Discreet identity (conditionOf c.1) ∧
        Legible a (conditionOf c.1) ∧ Legible b (conditionOf c.1)) →
      candidates a paths = candidates b paths ∧
        ∀ cs, candidates a paths = .ok cs → cs.Sublist paths) ∧
    ∀ condition, Legible a condition → (∀ x ∈ a, ∀ n ∈ x.walk, n.fromFront = true) →
      conditionValue a condition = valueOfOption (sealedTo a) condition := by
  refine ⟨?_, ?_, ?_⟩
  · intro condition hc ha hb
    exact h.conditionValue hc ha hb
  · intro paths hp
    refine ⟨?_, fun cs => sublist_of_candidates⟩
    apply candidates_congr
    intro p hm c hc
    obtain ⟨hd, ha, hb⟩ := hp p hm c hc
    exact Artifact.branchPossible_of_view (h.conditionValue hd ha hb) c.2
  · intro condition ha hplaces
    exact Artifact.conditionValue_eq_sealed ha hplaces

/-- The condition `(x == 2 and z) or y` on three parameters. -/
def layered : Artifact :=
  .binary ⟨6, none⟩ "or"
    (some (.binary ⟨4, none⟩ "and"
      (some (.binary ⟨2, none⟩ "==" (some (.reference ⟨0, none⟩ "x" (some 0)))
        (some (.literal ⟨1, none⟩ (.int 2)))))
      (some (.reference ⟨3, none⟩ "z" (some 2)))))
    (some (.reference ⟨5, none⟩ "y" (some 1)))

/-- For `x` a sum, for `y` a comparison of a parameter that has the place of `x` elsewhere, for `z` the
parameter itself. -/
def nestedArguments : List Artifact :=
  [.binary ⟨9, none⟩ "+" (some (.literal ⟨7, none⟩ (.int 1))) (some (.literal ⟨8, none⟩ (.int 1))),
   .binary ⟨12, none⟩ "==" (some (.reference ⟨10, none⟩ "u" (some 0)))
     (some (.literal ⟨11, none⟩ (.int 2))),
   .reference ⟨3, none⟩ "z" (some 2)]

def plainArguments : List Artifact :=
  [.literal ⟨13, none⟩ (.int 2), .reference ⟨14, none⟩ "v" none, .reference ⟨15, none⟩ "w" none]

theorem alike_layered : Alike false nestedArguments plainArguments :=
  .cons (by cbv) (.cons (by cbv) (.cons (by cbv) .nil))

theorem walk_layered : Artifact.walkFrom (some layered).toList =
    [layered,
     .binary ⟨4, none⟩ "and"
      (some (.binary ⟨2, none⟩ "==" (some (.reference ⟨0, none⟩ "x" (some 0)))
        (some (.literal ⟨1, none⟩ (.int 2)))))
      (some (.reference ⟨3, none⟩ "z" (some 2))),
     .binary ⟨2, none⟩ "==" (some (.reference ⟨0, none⟩ "x" (some 0)))
        (some (.literal ⟨1, none⟩ (.int 2))),
     .reference ⟨0, none⟩ "x" (some 0), .literal ⟨1, none⟩ (.int 2),
     .reference ⟨3, none⟩ "z" (some 2), .reference ⟨5, none⟩ "y" (some 1)] := by
  cbv

theorem legible_layered :
    Legible nestedArguments (some layered) ∧ Legible plainArguments (some layered) := by
  refine ⟨⟨?_, ?_⟩, ⟨?_, ?_⟩⟩ <;> rw [walk_layered]
  · simp [Artifact.fromFront, layered]
  · simp [nestedArguments, layered, Artifact.id, Artifact.info]
  · simp [Artifact.fromFront, layered]
  · simp [plainArguments, layered, Artifact.id, Artifact.info]

theorem discreet_layered : Discreet false (some layered) := by
  right
  rw [walk_layered]
  decide +kernel

/-- With `u` taken for `x` the condition would be true. -/
theorem evaluation_closed_layered :
    (conditionValue nestedArguments (some layered)).view false =
        (conditionValue plainArguments (some layered)).view false ∧
      conditionValue nestedArguments (some layered) = .ok none ∧
      candidates nestedArguments (bothWays layered) = candidates plainArguments (bothWays layered) ∧
      conditionValue nestedArguments (some layered) =
        valueOfOption (sealedTo nestedArguments) (some layered) := by
  obtain ⟨values, paths, closed⟩ := evaluation_closed false alike_layered
  obtain ⟨ha, hb⟩ := legible_layered
  refine ⟨values _ discreet_layered ha hb, by cbv, (paths _ ?_).1, closed _ ha ?_⟩
  · intro p hp c hc
    obtain ⟨taken, -, rfl⟩ := List.mem_map.mp hp
    obtain rfl := List.mem_singleton.mp hc
    exact ⟨discreet_layered, legible_layered⟩
  · decide +kernel

end Path

end CallTime

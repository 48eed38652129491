import CallTime.OrderedMap
import CallTime.Value.Print

/-!
Insights and the store that a node or a path keeps them in.

An insight is measured or derived. A derived one never takes the place of a measured one.
-/

namespace CallTime

inductive InsightType where
  | functionDuration | pathDuration
  deriving DecidableEq

structure Insight where
  type : InsightType
  value : Value
  derived : Bool := false

/-- A key with a type holds insights of that type; the others are kept for the analysis itself. -/
structure Key where
  name : String
  type : Option InsightType := none
  deriving DecidableEq

namespace Key

def functionDuration : Key := ⟨"function_duration", some .functionDuration⟩

def pathDuration : Key := ⟨"path_duration", some .pathDuration⟩

def callArgs : Key := ⟨"call_args", none⟩

def paths : Key := ⟨"procedural_multi_path", none⟩

def recursiveCall : Key := ⟨"recursive_call", none⟩

def analyzedArgs : Key := ⟨"analyzed_args", none⟩

def durationSource : Key := ⟨"duration_source", none⟩

def reserved (k : Key) : Bool := k.type.isNone

end Key

/-- What is stored under a key: an insight, or a note of type `ν`. -/
inductive Entry (ν : Type) where
  | insight (i : Insight)
  | note (n : ν)

namespace Entry

variable {ν : Type}

def insight? : Entry ν → Option Insight
  | .insight i => some i
  | .note _ => none

def note? : Entry ν → Option ν
  | .insight _ => none
  | .note n => some n

def blocker? : Option (Entry ν) → Entry ν → Option (Insight × Insight)
  | some (.insight current), .insight new =>
    if !current.derived && new.derived then some (current, new) else none
  | _, _ => none

end Entry

structure InsightData (ν : Type) where
  values : OrderedMap Key (Entry ν) := {}

namespace InsightData

variable {ν : Type}

def get? (d : InsightData ν) (k : Key) : Option (Entry ν) := d.values.get? k

def has (d : InsightData ν) (k : Key) : Bool := d.values.contains k

def size (d : InsightData ν) : Nat := d.values.size

def set (d : InsightData ν) (k : Key) (e : Entry ν) : InsightData ν × Bool :=
  match Entry.blocker? (d.get? k) e with
  | some _ => (d, false)
  | none => (⟨d.values.insert k e⟩, true)

/-- What is to be said about an entry that is not accepted. Nothing is said of values that cannot be
written. -/
def refusal? (d : InsightData ν) (k : Key) (e : Entry ν) : Option String :=
  (Entry.blocker? (d.get? k) e).bind fun (current, new) => do
    let kept ← current.value.literal.toOption
    let refused ← new.value.literal.toOption
    return "keeping measured " ++ k.name ++ "=" ++ kept ++ " over derived " ++ refused

def remove (d : InsightData ν) (k : Key) : InsightData ν := ⟨d.values.erase k⟩

def insight? (d : InsightData ν) (k : Key) : Option Insight := (d.get? k).bind Entry.insight?

def note? (d : InsightData ν) (k : Key) : Option ν := (d.get? k).bind Entry.note?

def insights (d : InsightData ν) : List Insight :=
  d.values.entries.filterMap fun (k, e) => if k.reserved then none else e.insight?

theorem get?_set_of_ne (d : InsightData ν) {k k' : Key} (h : k ≠ k') (e : Entry ν) :
    (d.set k e).1.get? k' = d.get? k' := by
  unfold set
  split
  · rfl
  · exact (OrderedMap.get?_insert _ _ _ _).trans (if_neg h)

theorem isSome_get?_set (d : InsightData ν) (k : Key) (e : Entry ν) :
    ((d.set k e).1.get? k).isSome := by
  unfold set
  cases hg : d.get? k with
  | none =>
    rw [show Entry.blocker? none e = none from rfl]
    simp [get?]
  | some current =>
    split
    · simp [hg]
    · simp [get?]

theorem set_note (d : InsightData ν) (k : Key) (n : ν) :
    d.set k (.note n) = (⟨d.values.insert k (.note n)⟩, true) := by
  have h : Entry.blocker? (d.get? k) (.note n) = none := by
    unfold Entry.blocker?
    split
    · contradiction
    · rfl
  rw [set, h]

theorem set_insight (d : InsightData ν) {k : Key} (h : ∀ i, d.insight? k = some i → i.derived = true)
    (new : Insight) : d.set k (.insight new) = (⟨d.values.insert k (.insight new)⟩, true) := by
  have hb : Entry.blocker? (d.get? k) (.insight new) = none := by
    unfold insight? at h
    cases hg : d.get? k with
    | none => rfl
    | some e =>
      cases e with
      | insight i => simp [Entry.blocker?, h i (by rw [hg]; rfl)]
      | note n => rfl
  rw [set, hb]

theorem get?_set_insight (d : InsightData ν) {k : Key}
    (h : ∀ i, d.insight? k = some i → i.derived = true) (new : Insight) :
    (d.set k (.insight new)).1.get? k = some (.insight new) := by
  rw [set_insight d h]
  exact (OrderedMap.get?_insert _ _ _ _).trans (if_pos rfl)

theorem get?_set_note (d : InsightData ν) (k : Key) (n : ν) :
    (d.set k (.note n)).1.get? k = some (.note n) := by
  rw [set_note]
  exact (OrderedMap.get?_insert _ _ _ _).trans (if_pos rfl)

theorem get?_remove (d : InsightData ν) (k k' : Key) :
    (d.remove k).get? k' = if k = k' then none else d.get? k' :=
  OrderedMap.get?_erase _ _ _

end InsightData

end CallTime

/-!
Maps that remember the order in which their keys were first inserted.
-/

namespace CallTime

/-- Pairs in insertion order. A key that is written again keeps its place; one that is erased and
written again goes to the end. -/
structure OrderedMap (α : Type) (β : Type) where
  entries : List (α × β) := []

namespace OrderedMap

variable {α β : Type} [DecidableEq α]

def get? (m : OrderedMap α β) (k : α) : Option β := (m.entries.find? (·.1 = k)).map (·.2)

def contains (m : OrderedMap α β) (k : α) : Bool := m.entries.any (·.1 = k)

def size (m : OrderedMap α β) : Nat := m.entries.length

def keys (m : OrderedMap α β) : List α := m.entries.map (·.1)

def values (m : OrderedMap α β) : List β := m.entries.map (·.2)

def insertEntry (k : α) (v : β) : List (α × β) → List (α × β)
  | [] => [(k, v)]
  | e :: rest => if e.1 = k then (k, v) :: rest else e :: insertEntry k v rest

def insert (m : OrderedMap α β) (k : α) (v : β) : OrderedMap α β := ⟨insertEntry k v m.entries⟩

def erase (m : OrderedMap α β) (k : α) : OrderedMap α β := ⟨m.entries.filter (·.1 ≠ k)⟩

def ofList (entries : List (α × β)) : OrderedMap α β :=
  entries.foldl (fun m e => m.insert e.1 e.2) {}

@[simp] theorem get?_empty (k : α) : ({} : OrderedMap α β).get? k = none := rfl

theorem find?_insertEntry (k k' : α) (v : β) (es : List (α × β)) :
    (insertEntry k v es).find? (·.1 = k') =
      if k = k' then some (k, v) else es.find? (·.1 = k') := by
  induction es with
  | nil => by_cases h : k = k' <;> simp [insertEntry, h]
  | cons e rest ih =>
    by_cases he : e.1 = k <;> by_cases hk : k = k' <;> simp_all [insertEntry, List.find?_cons]

@[simp] theorem get?_insert (m : OrderedMap α β) (k k' : α) (v : β) :
    (m.insert k v).get? k' = if k = k' then some v else m.get? k' := by
  by_cases h : k = k' <;> simp [get?, insert, find?_insertEntry, h]

@[simp] theorem get?_erase (m : OrderedMap α β) (k k' : α) :
    (m.erase k).get? k' = if k = k' then none else m.get? k' := by
  obtain ⟨es⟩ := m
  by_cases h : k = k'
  · subst h
    simp [get?, erase, List.find?_filter]
  · simp only [get?, erase, List.find?_filter, h, if_false]
    congr 2
    funext e
    by_cases he : e.1 = k' <;> simp [he, Ne.symm h]

theorem mem_values_of_get? {m : OrderedMap α β} {k : α} {v : β} (h : m.get? k = some v) :
    v ∈ m.values := by
  obtain ⟨e, he, rfl⟩ := Option.map_eq_some_iff.mp h
  exact List.mem_map_of_mem (List.mem_of_find?_eq_some he)

theorem mem_values_insert {m : OrderedMap α β} {k : α} {v w : β} (h : w ∈ (m.insert k v).values) :
    w = v ∨ w ∈ m.values := by
  obtain ⟨es⟩ := m
  induction es with
  | nil => simpa [insert, insertEntry, values] using h
  | cons e es ih =>
    by_cases he : e.1 = k
    · simp only [insert, insertEntry, he, if_true, values, List.map_cons, List.mem_cons] at h ⊢
      exact h.imp_right .inr
    · simp only [insert, insertEntry, he, if_false, values, List.map_cons, List.mem_cons] at h ⊢
      obtain h | h := h
      · exact .inr (.inl h)
      · exact (ih h).imp_right .inr

end OrderedMap

end CallTime

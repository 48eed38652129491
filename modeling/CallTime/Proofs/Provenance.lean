import Mathlib
import CallTime.Insight.Data

/-!
Insight data over a whole history of writes and removals.

Main statement: what is stored under a key can be told from the history of this key alone, and so can the
answer to a write. A measured insight stands until it is removed or a note takes its place, and derived
insights give way to it, whether they come before or after. The insights are listed in the order in which
their keys came up.
-/

namespace CallTime

namespace OrderedMap

variable {α β : Type} [DecidableEq α]

theorem mem_keys_iff {m : OrderedMap α β} {k : α} : k ∈ m.keys ↔ (m.get? k).isSome := by
  simp [keys, get?]

theorem map_fst_insertEntry (k : α) (v : β) (es : List (α × β)) :
    (insertEntry k v es).map Prod.fst =
      if k ∈ es.map Prod.fst then es.map Prod.fst else es.map Prod.fst ++ [k] := by
  induction es with
  | nil => simp [insertEntry]
  | cons e es ih =>
    by_cases he : e.1 = k
    · simp [insertEntry, he]
    · rw [insertEntry, if_neg he, List.map_cons, ih, List.map_cons]
      by_cases hk : k ∈ es.map Prod.fst
      · rw [if_pos hk, if_pos (List.mem_cons_of_mem _ hk)]
      · rw [if_neg hk, if_neg (by simp [Ne.symm he, hk]), List.cons_append]

theorem keys_insert (m : OrderedMap α β) (k : α) (v : β) :
    (m.insert k v).keys = if k ∈ m.keys then m.keys else m.keys ++ [k] :=
  map_fst_insertEntry k v m.entries

theorem keys_erase (m : OrderedMap α β) (k : α) : (m.erase k).keys = m.keys.filter (· ≠ k) := by
  rw [keys, keys, List.filter_map]
  rfl

theorem get?_of_mem_entries {m : OrderedMap α β} (h : m.keys.Nodup) {e : α × β} (he : e ∈ m.entries) :
    m.get? e.1 = some e.2 := by
  obtain ⟨es⟩ := m
  induction es with
  | nil => cases he
  | cons e' es ih =>
    obtain ⟨hnot, hes⟩ := List.nodup_cons.mp h
    obtain rfl | he := List.mem_cons.mp he
    · simp [get?]
    · have hne : e'.1 ≠ e.1 := fun heq => hnot (List.mem_map.mpr ⟨e, he, heq.symm⟩)
      have hrest := ih hes he
      simp only [get?, List.find?_cons, hne, decide_false] at hrest ⊢
      exact hrest

end OrderedMap

namespace Entry

variable {ν : Type}

def isNote : Entry ν → Bool
  | .insight _ => false
  | .note _ => true

def isMeasured : Entry ν → Bool
  | .insight i => !i.derived
  | .note _ => false

def isDerived : Entry ν → Bool
  | .insight i => i.derived
  | .note _ => false

theorem blocker?_isSome_iff {current : Option (Entry ν)} {e : Entry ν} :
    (blocker? current e).isSome ↔ e.isDerived ∧ ∃ m, current = some m ∧ m.isMeasured := by
  cases current with
  | none => simp [blocker?]
  | some m =>
    cases m with
    | note n => simp [blocker?, isMeasured]
    | insight i =>
      cases e with
      | note n => simp [blocker?, isDerived]
      | insight j =>
        by_cases hi : i.derived <;> by_cases hj : j.derived <;>
          simp [blocker?, isMeasured, isDerived, hi, hj]

end Entry

namespace InsightData

variable {ν : Type}

theorem set_of_blocked {d : InsightData ν} {k : Key} {e : Entry ν}
    (h : (Entry.blocker? (d.get? k) e).isSome) : d.set k e = (d, false) := by
  obtain ⟨pair, hpair⟩ := Option.isSome_iff_exists.mp h
  rw [set, hpair]

theorem set_of_free {d : InsightData ν} {k : Key} {e : Entry ν}
    (h : ¬(Entry.blocker? (d.get? k) e).isSome) :
    d.set k e = (⟨d.values.insert k e⟩, true) := by
  rw [set, Option.not_isSome_iff_eq_none.mp h]

theorem set_eq_false_iff (d : InsightData ν) (k : Key) (e : Entry ν) :
    (d.set k e).2 = false ↔ e.isDerived ∧ ∃ m, d.get? k = some m ∧ m.isMeasured := by
  rw [← Entry.blocker?_isSome_iff]
  by_cases h : (Entry.blocker? (d.get? k) e).isSome
  · simp [set_of_blocked h, h]
  · simp [set_of_free h, h]

theorem insights_eq {d : InsightData ν} (h : d.values.keys.Nodup) :
    d.insights = d.values.keys.filterMap fun k => if k.reserved then none else d.insight? k := by
  rw [insights, OrderedMap.keys, List.filterMap_map]
  apply List.filterMap_congr
  intro e he
  have hget : d.get? e.1 = some e.2 := OrderedMap.get?_of_mem_entries h he
  simp [insight?, hget]

end InsightData

inductive Access (ν : Type) where
  | set (k : Key) (e : Entry ν)
  | remove (k : Key)

namespace Access

variable {ν : Type}

def apply (d : InsightData ν) : Access ν → InsightData ν
  | .set k e => (d.set k e).1
  | .remove k => d.remove k

def removes (k : Key) : Access ν → Bool
  | .set _ _ => false
  | .remove k' => k' = k

def written? (k : Key) : Access ν → Option (Entry ν)
  | .set k' e => if k' = k then some e else none
  | .remove _ => none

def result (history : List (Access ν)) : InsightData ν := history.foldl Access.apply {}

def writes (k : Key) (history : List (Access ν)) : List (Entry ν) :=
  (history.rtakeWhile fun a => !a.removes k).filterMap (Access.written? k)

def fromLastNote : List (Entry ν) → List (Entry ν)
  | [] => []
  | e :: es => if es.any Entry.isNote then fromLastNote es else e :: es

def prevailing (es : List (Entry ν)) : Option (Entry ν) :=
  (es.filter Entry.isMeasured).getLast?.or es.getLast?

def current (k : Key) (history : List (Access ν)) : Option (Entry ν) :=
  prevailing (fromLastNote (writes k history))

def firstWrite? (k : Key) (history : List (Access ν)) : Option Nat :=
  ((history.zipIdx.rtakeWhile fun a => !a.1.removes k).find? fun a => (a.1.written? k).isSome).map
    Prod.snd

def Precedes (history : List (Access ν)) (k k' : Key) : Prop :=
  ∃ i j, firstWrite? k history = some i ∧ firstWrite? k' history = some j ∧ i < j

theorem result_concat (history : List (Access ν)) (a : Access ν) :
    result (history ++ [a]) = a.apply (result history) := by
  rw [result, List.foldl_append]
  rfl

theorem writes_concat (k : Key) (history : List (Access ν)) (a : Access ν) :
    writes k (history ++ [a]) =
      if a.removes k then [] else writes k history ++ (a.written? k).toList := by
  rw [writes, List.rtakeWhile_concat]
  by_cases h : a.removes k
  · simp [h]
  · cases hw : a.written? k <;> simp [h, hw, writes]

theorem fromLastNote_concat (es : List (Entry ν)) (e : Entry ν) :
    fromLastNote (es ++ [e]) = if e.isNote then [e] else fromLastNote es ++ [e] := by
  induction es with
  | nil => simp [fromLastNote]
  | cons e' es ih =>
    rw [List.cons_append, fromLastNote, fromLastNote, List.any_append, ih]
    by_cases he : e.isNote
    · simp [he]
    · by_cases hes : es.any Entry.isNote <;> simp [he, hes]

theorem prevailing_concat (es : List (Entry ν)) (e : Entry ν) :
    prevailing (es ++ [e]) =
      if e.isMeasured then some e else (es.filter Entry.isMeasured).getLast?.or (some e) := by
  by_cases he : e.isMeasured <;> simp [prevailing, List.filter_append, he]

theorem exists_measured_prevailing_iff (es : List (Entry ν)) :
    (∃ m, prevailing es = some m ∧ m.isMeasured) ↔ es.filter Entry.isMeasured ≠ [] := by
  constructor
  · rintro ⟨m, hm, hmeasured⟩ hnone
    rw [prevailing, hnone, List.getLast?_nil, Option.none_or] at hm
    have hmem := List.mem_filter.mpr ⟨List.mem_of_getLast? hm, hmeasured⟩
    rw [hnone] at hmem
    cases hmem
  · intro hne
    refine ⟨(es.filter Entry.isMeasured).getLast hne, ?_, ?_⟩
    · rw [prevailing, List.getLast?_eq_some_getLast hne, Option.some_or]
    · exact (List.mem_filter.mp (List.getLast_mem hne)).2

/-- One more write: a derived insight gives way to a measured one, all else is taken. -/
theorem prevailing_fromLastNote_concat (es : List (Entry ν)) (e : Entry ν) :
    prevailing (fromLastNote (es ++ [e])) =
      if (Entry.blocker? (prevailing (fromLastNote es)) e).isSome then prevailing (fromLastNote es)
      else some e := by
  rw [fromLastNote_concat]
  generalize fromLastNote es = window
  simp only [Entry.blocker?_isSome_iff, exists_measured_prevailing_iff]
  -- A note is a window of its own, so only an insight has to stand up to what prevails.
  cases e with
  | note n => simp [prevailing, Entry.isNote, Entry.isMeasured, Entry.isDerived]
  | insight i =>
    rw [if_neg (by simp [Entry.isNote]), prevailing_concat]
    by_cases hd : i.derived
    · rw [if_neg (by simp [Entry.isMeasured, hd])]
      by_cases hne : window.filter Entry.isMeasured = []
      · rw [if_neg (fun h => h.2 hne), hne, List.getLast?_nil, Option.none_or]
      · rw [if_pos ⟨hd, hne⟩, prevailing, List.getLast?_eq_some_getLast hne, Option.some_or,
          Option.some_or]
    · rw [if_pos (by simp [Entry.isMeasured, hd]), if_neg (fun h => hd h.1)]

theorem current_concat_set (k k' : Key) (history : List (Access ν)) (e : Entry ν) :
    current k (history ++ [.set k' e]) =
      if k' = k then
        if (Entry.blocker? (current k history) e).isSome then current k history else some e
      else current k history := by
  rw [current, writes_concat, if_neg (by simp [Access.removes])]
  by_cases h : k' = k
  · simp only [Access.written?, h, if_true, Option.toList_some]
    exact prevailing_fromLastNote_concat _ e
  · simp [Access.written?, h, current]

theorem current_concat_remove (k k' : Key) (history : List (Access ν)) :
    current k (history ++ [.remove k']) = if k' = k then none else current k history := by
  rw [current, writes_concat]
  by_cases h : k' = k
  · simp [Access.removes, h, fromLastNote, prevailing]
  · simp [Access.removes, Access.written?, h, current]

theorem firstWrite?_concat (k : Key) (history : List (Access ν)) (a : Access ν) :
    firstWrite? k (history ++ [a]) =
      if a.removes k then none
      else (firstWrite? k history).or (if (a.written? k).isSome then some history.length else none) := by
  rw [firstWrite?, List.zipIdx_append, List.zipIdx_singleton, List.rtakeWhile_concat]
  by_cases h : a.removes k
  · simp [h]
  · rw [if_pos (by simp [h]), if_neg h, List.find?_append, Option.map_or, firstWrite?]
    by_cases hw : (a.written? k).isSome <;> simp [hw]

theorem firstWrite?_concat_set (k k' : Key) (history : List (Access ν)) (e : Entry ν) :
    firstWrite? k (history ++ [.set k' e]) =
      (firstWrite? k history).or (if k' = k then some history.length else none) := by
  rw [firstWrite?_concat, if_neg (by simp [Access.removes])]
  by_cases h : k' = k <;> simp [Access.written?, h]

theorem firstWrite?_concat_remove (k k' : Key) (history : List (Access ν)) :
    firstWrite? k (history ++ [.remove k']) = if k' = k then none else firstWrite? k history := by
  rw [firstWrite?_concat]
  by_cases h : k' = k <;> simp [Access.removes, Access.written?, h]

theorem lt_of_firstWrite? {k : Key} {history : List (Access ν)} {i : Nat}
    (h : firstWrite? k history = some i) : i < history.length := by
  obtain ⟨a, ha, rfl⟩ := Option.map_eq_some_iff.mp h
  have hmem := (List.rtakeWhile_suffix _ _).mem (List.mem_of_find?_eq_some ha)
  simpa using List.snd_lt_of_mem_zipIdx hmem

theorem get?_result (history : List (Access ν)) (k : Key) :
    (result history).get? k = current k history := by
  induction history using List.reverseRecOn with
  | nil => rfl
  | append_singleton history a ih =>
    rw [result_concat]
    cases a with
    | remove k' => rw [current_concat_remove, Access.apply, InsightData.get?_remove, ih]
    | set k' e =>
      rw [current_concat_set, Access.apply]
      by_cases hk : k' = k
      · subst hk
        rw [if_pos rfl, ← ih]
        by_cases hb : (Entry.blocker? ((result history).get? k') e).isSome
        · rw [if_pos hb, InsightData.set_of_blocked hb]
        · rw [if_neg hb, InsightData.set_of_free hb]
          simp [InsightData.get?]
      · rw [if_neg hk, InsightData.get?_set_of_ne _ hk, ih]

/-- The keys are those that came up and were not removed, in the order in which they came up. -/
structure InOrder (history : List (Access ν)) (keys : List Key) : Prop where
  mem : ∀ k, k ∈ keys ↔ (firstWrite? k history).isSome
  sorted : keys.Pairwise (Precedes history)

theorem InOrder.nodup {history : List (Access ν)} {keys : List Key} (h : InOrder history keys) :
    keys.Nodup := by
  refine h.sorted.imp fun {k k'} hlt heq => ?_
  obtain ⟨i, j, hi, hj, hij⟩ := hlt
  rw [heq, hj] at hi
  cases hi
  exact Nat.lt_irrefl _ hij

theorem InOrder.concat_remove {history : List (Access ν)} {keys : List Key} (h : InOrder history keys)
    (k' : Key) : InOrder (history ++ [.remove k']) (keys.filter (· ≠ k')) := by
  constructor
  · intro k
    rw [firstWrite?_concat_remove, List.mem_filter, h.mem k]
    by_cases hk : k' = k
    · simp [hk]
    · simp [hk, Ne.symm hk]
  · refine (h.sorted.filter _).imp_of_mem fun {k l} hk hl hlt => ?_
    have hk' : k' ≠ k := fun heq => by simp [heq] at hk
    have hl' : k' ≠ l := fun heq => by simp [heq] at hl
    simpa only [Precedes, firstWrite?_concat_remove, if_neg hk', if_neg hl'] using hlt

theorem InOrder.concat_set {history : List (Access ν)} {keys : List Key} (h : InOrder history keys)
    (k' : Key) (e : Entry ν) :
    InOrder (history ++ [.set k' e]) (if k' ∈ keys then keys else keys ++ [k']) := by
  have hkept : keys.Pairwise (Precedes (history ++ [.set k' e])) := by
    refine h.sorted.imp fun {k l} hlt => ?_
    obtain ⟨i, j, hi, hj, hij⟩ := hlt
    exact ⟨i, j, by simp [firstWrite?_concat_set, hi], by simp [firstWrite?_concat_set, hj], hij⟩
  by_cases hmem : k' ∈ keys
  · rw [if_pos hmem]
    refine ⟨fun k => ?_, hkept⟩
    rw [h.mem k, firstWrite?_concat_set]
    by_cases hk : k' = k
    · have hsome := (h.mem k).mp (hk ▸ hmem)
      simp [hsome]
    · simp [hk]
  · rw [if_neg hmem]
    have hnew : firstWrite? k' history = none :=
      Option.not_isSome_iff_eq_none.mp fun hsome => hmem ((h.mem k').mpr hsome)
    refine ⟨fun k => ?_, ?_⟩
    · rw [List.mem_append, List.mem_singleton, h.mem k, firstWrite?_concat_set]
      by_cases hk : k' = k
      · simp [hk]
      · simp [hk, Ne.symm hk]
    -- The new key is first written at the end of the history, and all others came up before.
    · refine List.pairwise_append.mpr ⟨hkept, List.pairwise_singleton _ _, ?_⟩
      intro k hk l hl
      obtain rfl := List.mem_singleton.mp hl
      obtain ⟨i, hi⟩ := Option.isSome_iff_exists.mp ((h.mem k).mp hk)
      refine ⟨i, history.length, ?_, ?_, lt_of_firstWrite? hi⟩
      · simp [firstWrite?_concat_set, hi]
      · simp [firstWrite?_concat_set, hnew]

theorem keys_set (d : InsightData ν) (k : Key) (e : Entry ν) :
    (d.set k e).1.values.keys = if k ∈ d.values.keys then d.values.keys else d.values.keys ++ [k] := by
  by_cases hb : (Entry.blocker? (d.get? k) e).isSome
  · obtain ⟨-, m, hm, -⟩ := Entry.blocker?_isSome_iff.mp hb
    have hmem : k ∈ d.values.keys := OrderedMap.mem_keys_iff.mpr (Option.isSome_of_eq_some hm)
    rw [InsightData.set_of_blocked hb, if_pos hmem]
  · rw [InsightData.set_of_free hb]
    exact OrderedMap.keys_insert _ k e

theorem inOrder_result (history : List (Access ν)) :
    InOrder history (result history).values.keys := by
  induction history using List.reverseRecOn with
  | nil => exact ⟨fun k => by simp [result, OrderedMap.keys, firstWrite?], .nil⟩
  | append_singleton history a ih =>
    rw [result_concat]
    cases a with
    | remove k =>
      rw [Access.apply, InsightData.remove, OrderedMap.keys_erase]
      exact ih.concat_remove k
    | set k e =>
      rw [Access.apply, keys_set]
      exact ih.concat_set k e

/-- What is stored under a key is the last measured insight among the writes to it since its last removal
and from the last note on, and the last of these writes if none is measured. A write is refused just if
it is a derived insight and what is stored is a measured one. The insights under typed keys are listed in
the order in which the keys were first written since their last removal. -/
theorem history_law (history : List (Access ν)) :
    (∀ k, (result history).get? k = current k history) ∧
    (∀ k e, ((result history).set k e).2 = false ↔
      e.isDerived ∧ ∃ m, current k history = some m ∧ m.isMeasured) ∧
    ∃ keys, InOrder history keys ∧ (result history).insights = keys.filterMap fun k =>
      if k.reserved then none else (current k history).bind Entry.insight? := by
  refine ⟨get?_result history, ?_, _, inOrder_result history, ?_⟩
  · intro k e
    rw [InsightData.set_eq_false_iff, get?_result]
  · rw [InsightData.insights_eq (inOrder_result history).nodup]
    apply List.filterMap_congr
    intro k _
    rw [InsightData.insight?, get?_result]

example : (result ([.set .pathDuration (.insight ⟨.pathDuration, .int 1, true⟩),
      .set .functionDuration (.insight ⟨.functionDuration, .int 5, false⟩),
      .set .functionDuration (.note .null),
      .set .functionDuration (.insight ⟨.functionDuration, .int 7, true⟩),
      .remove .pathDuration,
      .set .pathDuration (.insight ⟨.pathDuration, .int 2, true⟩)] : List (Access Value))).insights =
    [⟨.functionDuration, .int 7, true⟩, ⟨.pathDuration, .int 2, true⟩] := by
  cbv

end Access

end CallTime

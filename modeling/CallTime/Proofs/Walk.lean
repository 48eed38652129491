import CallTime.Artifact.Basic

/-!
The walk through a tree: what it meets, and how it splits.
-/

namespace CallTime.Artifact

def isCall : Artifact → Bool
  | .call _ _ _ _ => true
  | _ => false

theorem walkFrom_append (as bs : List Artifact) : walkFrom (as ++ bs) = walkFrom as ++ walkFrom bs := by
  induction as using walkFrom.induct with
  | case1 => rw [walkFrom, List.nil_append, List.nil_append]
  | case2 a pending ih =>
    rw [List.cons_append, walkFrom, walkFrom, ← List.append_assoc, ih, List.cons_append]

theorem walkFrom_cons (a : Artifact) (as : List Artifact) :
    walkFrom (a :: as) = a.walk ++ walkFrom as :=
  walkFrom_append [a] as

theorem walk_eq (a : Artifact) : a.walk = a :: walkFrom a.children := by
  rw [walk, walkFrom, List.append_nil]

theorem walkFrom_eq_flatMap (as : List Artifact) : walkFrom as = as.flatMap walk := by
  induction as with
  | nil => rw [walkFrom, List.flatMap_nil]
  | cons a as ih => rw [walkFrom_cons, List.flatMap_cons, ih]

theorem mem_walk_self (a : Artifact) : a ∈ a.walk := by
  rw [walk_eq]
  exact List.mem_cons_self

theorem mem_walkFrom_of_mem {a : Artifact} {as : List Artifact} (h : a ∈ as) : a ∈ walkFrom as := by
  rw [walkFrom_eq_flatMap]
  exact List.mem_flatMap.mpr ⟨a, h, a.mem_walk_self⟩

theorem mem_walkFrom_children {a c : Artifact} {as : List Artifact} (h : a ∈ walkFrom as)
    (hc : c ∈ a.children) : c ∈ walkFrom as := by
  induction as using walkFrom.induct with
  | case1 =>
    rw [walkFrom] at h
    cases h
  | case2 b pending ih =>
    rw [walkFrom] at h ⊢
    obtain rfl | h := List.mem_cons.mp h
    · exact List.mem_cons_of_mem _ (mem_walkFrom_of_mem (List.mem_append_left _ hc))
    · exact List.mem_cons_of_mem _ (ih h)

theorem forall_mem_walkFrom {Q : Artifact → Prop} (closed : ∀ a, Q a → ∀ c ∈ a.children, Q c)
    {as : List Artifact} (h : ∀ a ∈ as, Q a) : ∀ a ∈ walkFrom as, Q a := by
  induction as using walkFrom.induct with
  | case1 =>
    rw [walkFrom]
    exact List.forall_mem_nil _
  | case2 b pending ih =>
    have hb := h b List.mem_cons_self
    rw [walkFrom, List.forall_mem_cons]
    refine ⟨hb, ih fun a ha => ?_⟩
    obtain ha | ha := List.mem_append.mp ha
    · exact closed b hb a ha
    · exact h a (List.mem_cons_of_mem b ha)

theorem exists_parent_of_mem_walkFrom {a : Artifact} {as : List Artifact} (h : a ∈ walkFrom as) :
    a ∈ as ∨ ∃ p ∈ walkFrom as, a ∈ p.children := by
  induction as using walkFrom.induct with
  | case1 =>
    rw [walkFrom] at h
    cases h
  | case2 b pending ih =>
    rw [walkFrom] at h ⊢
    obtain rfl | h := List.mem_cons.mp h
    · exact .inl List.mem_cons_self
    · obtain h | ⟨p, hp, hc⟩ := ih h
      · obtain h | h := List.mem_append.mp h
        · exact .inr ⟨b, List.mem_cons_self, h⟩
        · exact .inl (List.mem_cons_of_mem b h)
      · exact .inr ⟨p, List.mem_cons_of_mem b hp, hc⟩

theorem mem_walkFrom_of_mem_walk {a b : Artifact} {as : List Artifact} (h : a ∈ walkFrom as)
    (hb : b ∈ a.walk) : b ∈ walkFrom as :=
  forall_mem_walkFrom (fun _ h _ hc => mem_walkFrom_children h hc)
    (fun _ hm => List.mem_singleton.mp hm ▸ h) b hb

theorem walk_sublist {a : Artifact} {as : List Artifact} (h : a ∈ walkFrom as) :
    a.walk.Sublist (walkFrom as) := by
  induction as using walkFrom.induct with
  | case1 =>
    rw [walkFrom] at h
    cases h
  | case2 b pending ih =>
    rw [walkFrom] at h ⊢
    obtain rfl | h := List.mem_cons.mp h
    · rw [walk_eq, walkFrom_append]
      exact (List.sublist_append_left _ _).cons_cons a
    · exact (ih h).cons b

/-- Where no node occurs twice, the walk starts at no child, and a child has one parent. -/
theorem unique_parent {as : List Artifact} (hn : (walkFrom as).Nodup) {b c : Artifact}
    (hb : b ∈ walkFrom as) (hc : c ∈ b.children) :
    c ∉ as ∧ ∀ a ∈ walkFrom as, c ∈ a.children → a = b := by
  induction as using walkFrom.induct generalizing b with
  | case1 =>
    rw [walkFrom] at hb
    cases hb
  | case2 d pending ih =>
    rw [walkFrom] at hn hb
    have hd : ∀ a ∈ d :: walkFrom (d.children ++ pending), c ∈ a.children → c ≠ d := by
      rintro a ha hca rfl
      refine (List.nodup_cons.mp hn).1 ?_
      obtain rfl | ha := List.mem_cons.mp ha
      · exact mem_walkFrom_of_mem (List.mem_append_left _ hca)
      · exact mem_walkFrom_children ha hca
    have rest := fun {b : Artifact} => ih (b := b) (List.nodup_cons.mp hn).2
    have hfirst : c ∈ d.children → c ∉ pending := by
      intro hcd hcp
      have hsplit := (List.nodup_cons.mp hn).2
      rw [walkFrom_append] at hsplit
      exact List.nodup_append.mp hsplit |>.2.2 c (mem_walkFrom_of_mem hcd) c (mem_walkFrom_of_mem hcp) rfl
    obtain rfl | hb' := List.mem_cons.mp hb
    · refine ⟨fun h => ?_, fun a ha hca => ?_⟩
      · obtain rfl | h := List.mem_cons.mp h
        · exact hd _ hb hc rfl
        · exact hfirst hc h
      · rw [walkFrom] at ha
        obtain rfl | ha := List.mem_cons.mp ha
        · rfl
        · exact absurd (List.mem_append_left _ hc) (rest ha hca).1
    · refine ⟨fun h => ?_, fun a ha hca => ?_⟩
      · obtain rfl | h := List.mem_cons.mp h
        · exact hd _ hb hc rfl
        · exact (rest hb' hc).1 (List.mem_append_right _ h)
      · rw [walkFrom] at ha
        obtain rfl | ha := List.mem_cons.mp ha
        · exact absurd (List.mem_append_left _ hca) (rest hb' hc).1
        · exact (rest hb' hc).2 a ha hca

theorem mem_walk_children {a b c : Artifact} (h : a ∈ b.walk) (hc : c ∈ a.children) : c ∈ b.walk :=
  mem_walkFrom_children h hc

end CallTime.Artifact

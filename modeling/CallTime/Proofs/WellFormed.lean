import CallTime.Proofs.Lowering
import CallTime.Proofs.Program

/-!
The trees of a module that was read from a source.

What the drafts of the functions promise holds of the nodes that are built from them. Main statement: a
source that is not refused makes a well-formed session.
-/

namespace CallTime

namespace OrderedMap

variable {α β : Type} [DecidableEq α]

theorem mem_insertEntry {k : α} {v : β} {es : List (α × β)} {e : α × β}
    (h : e ∈ insertEntry k v es) : e = (k, v) ∨ e ∈ es := by
  induction es with
  | nil => exact .inl (List.mem_singleton.mp h)
  | cons e' es ih =>
    unfold insertEntry at h
    split at h
    · exact (List.mem_cons.mp h).imp_right (List.mem_cons_of_mem e')
    · obtain rfl | h := List.mem_cons.mp h
      · exact .inr List.mem_cons_self
      · exact (ih h).imp_right (List.mem_cons_of_mem e')

theorem nodup_insertEntry (k : α) (v : β) {es : List (α × β)} (h : (es.map Prod.fst).Nodup) :
    ((insertEntry k v es).map Prod.fst).Nodup := by
  induction es with
  | nil => exact List.nodup_singleton k
  | cons e es ih =>
    obtain ⟨he, hes⟩ := List.nodup_cons.mp h
    unfold insertEntry
    split
    · next hk => exact hk ▸ h
    · next hk =>
      refine List.nodup_cons.mpr ⟨fun hm => ?_, ih hes⟩
      obtain ⟨e', he', hf⟩ := List.mem_map.mp hm
      obtain rfl | he' := mem_insertEntry he'
      · exact hk hf.symm
      · exact he (hf ▸ List.mem_map_of_mem he')

theorem nodup_keys_ofList (es : List (α × β)) : (ofList es).keys.Nodup := by
  have hfold : ∀ m : OrderedMap α β, m.keys.Nodup →
      (es.foldl (fun m e => m.insert e.1 e.2) m).keys.Nodup := by
    induction es with
    | nil => exact fun m hm => hm
    | cons e es ih => exact fun m hm => ih _ (nodup_insertEntry e.1 e.2 hm)
  exact hfold {} List.nodup_nil

theorem mem_of_mem_ofList {es : List (α × β)} {e : α × β} (h : e ∈ (ofList es).entries) : e ∈ es := by
  have hfold : ∀ m : OrderedMap α β,
      e ∈ (es.foldl (fun m e => m.insert e.1 e.2) m).entries → e ∈ es ∨ e ∈ m.entries := by
    clear h
    induction es with
    | nil => exact fun m hm => .inr hm
    | cons e' es ih =>
      intro m hm
      obtain hm | hm := ih _ hm
      · exact .inl (List.mem_cons_of_mem e' hm)
      · obtain rfl | hm := mem_insertEntry hm
        · exact .inl List.mem_cons_self
        · exact .inr hm
  exact (hfold {} h).resolve_right List.not_mem_nil

theorem get?_of_mem {m : OrderedMap α β} (h : m.keys.Nodup) {e : α × β} (he : e ∈ m.entries) :
    m.get? e.1 = some e.2 := by
  obtain ⟨es⟩ := m
  induction es with
  | nil => cases he
  | cons e' es ih =>
    obtain ⟨hn, hes⟩ := List.nodup_cons.mp h
    obtain rfl | he := List.mem_cons.mp he
    · simp [get?]
    · have hne : e'.1 ≠ e.1 := fun hk => hn (List.mem_map.mpr ⟨e, he, hk.symm⟩)
      simpa [get?, hne] using ih hes he

end OrderedMap

namespace Source.Signature

/-- Every function stands under its own key, and no key is used twice. -/
theorem keyed_collect (statements : List Stmt) :
    (collect statements).keys.Nodup ∧ ∀ e ∈ (collect statements).entries, e.1 = e.2.key := by
  refine ⟨OrderedMap.nodup_keys_ofList _, fun e he => ?_⟩
  obtain ⟨s, -, rfl⟩ := List.mem_map.mp (OrderedMap.mem_of_mem_ofList he)
  rfl

theorem get?_collect {statements : List Stmt} {s : Signature}
    (h : s ∈ (collect statements).values) : (collect statements).get? s.key = some s := by
  obtain ⟨e, he, rfl⟩ := List.mem_map.mp h
  rw [← (keyed_collect statements).2 e he]
  exact OrderedMap.get?_of_mem (keyed_collect statements).1 he

theorem key_of_collect {statements : List Stmt} {k : String} {s : Signature}
    (h : (collect statements).get? k = some s) : s.key = k :=
  ((keyed_collect statements).2 _ (OrderedMap.mem_entries_of_get? h)).symm

end Source.Signature

theorem Draft.isPlainList_of {ds : List Draft} (h : ∀ d ∈ ds, d.isPlain = true) :
    isPlainList ds = true := by
  induction ds with
  | nil => rfl
  | cons d ds ih =>
    obtain ⟨hd, hds⟩ := List.forall_mem_cons.mp h
    exact Bool.and_eq_true_iff.mpr ⟨hd, ih hds⟩

theorem Draft.Fits.isPlain {signatures : OrderedMap String Source.Signature}
    {parameters : List String} {d : Draft} (h : d.Fits signatures parameters) : d.isPlain = true := by
  have hoption {o : Option Draft} (h : ∀ d ∈ o, d.isPlain = true) : Draft.isPlainOption o = true := by
    cases o with
    | none => rfl
    | some d => exact h d rfl
  induction h with
  | block line _ ih => exact isPlainList_of ih
  | unknown line name => rfl
  | parameter line h => rfl
  | literal line h => rfl
  | binary line operator _ _ ihl ihr => exact Bool.and_eq_true_iff.mpr ⟨hoption ihl, hoption ihr⟩
  | ret line _ ih => exact hoption ih
  | branch line _ _ _ ihc iht ihe =>
    exact Bool.and_eq_true_iff.mpr ⟨Bool.and_eq_true_iff.mpr ⟨hoption ihc, hoption iht⟩, hoption ihe⟩
  | call line name _ _ ih => exact isPlainList_of ih

/-- In a function with these parameters a reference to one has its name and place, and a call that
resolves binds the parameters of what it calls. -/
def Artifact.Fits (signatures : OrderedMap String Source.Signature) (parameters : List String) :
    Artifact → Prop
  | .reference _ name (some index) => 0 ≤ index ∧ parameters[index.toNat]? = some name
  | .call _ _ arguments (some key) => ∃ s, signatures.get? key = some s ∧
    s.parameters.length ≤ arguments.length ∧
      ∀ a ∈ arguments.drop s.parameters.length, a.isCall = true
  | _ => True

namespace Forest

open Artifact

variable {signatures : OrderedMap String Source.Signature} {parameters : List String}

theorem forall₂_buildList (ds : List Draft) (F : Forest) :
    List.Forall₂ (fun d a => ∃ G, ((build d).run G).1 = a) ds ((buildList ds).run F).1 := by
  induction ds generalizing F with
  | nil => exact .nil
  | cons d ds ih => exact .cons ⟨F, rfl⟩ (ih _)

theorem exists_build_of_buildOption {o : Option Draft} {F : Forest} {a : Artifact}
    (h : a ∈ ((buildOption o).run F).1.toList) : ∃ d ∈ o, ∃ G, ((build d).run G).1 = a := by
  cases o with
  | none => cases h
  | some d => exact ⟨d, rfl, F, (List.mem_singleton.mp h).symm⟩

theorem isCall_build {d : Draft} (h : d.isCall = true) (F : Forest) :
    ((build d).run F).1.isCall = true := by
  cases d with
  | call => rfl
  | _ => cases h

theorem fits_walk {a : Artifact} (ha : a.Fits signatures parameters)
    (hc : ∀ c ∈ a.children, ∀ b ∈ c.walk, b.Fits signatures parameters) :
    ∀ b ∈ a.walk, b.Fits signatures parameters := by
  rw [walk_eq, List.forall_mem_cons, walkFrom_eq_flatMap]
  refine ⟨ha, fun b hb => ?_⟩
  obtain ⟨c, hm, hb⟩ := List.mem_flatMap.mp hb
  exact hc c hm b hb

theorem fits_build {d : Draft} (h : d.Fits signatures parameters) (F : Forest) :
    ∀ a ∈ ((build d).run F).1.walk, a.Fits signatures parameters := by
  have hlist {ds : List Draft} (ih : ∀ d ∈ ds, ∀ G : Forest, ∀ a ∈ ((build d).run G).1.walk,
      a.Fits signatures parameters) (F : Forest) :
      ∀ c ∈ ((buildList ds).run F).1, ∀ a ∈ c.walk, a.Fits signatures parameters := by
    intro c hc
    obtain ⟨d, hd, G, rfl⟩ := exists_of_forall₂ (forall₂_buildList ds F) hc
    exact ih d hd G
  have hoption {o : Option Draft} (ih : ∀ d ∈ o, ∀ G : Forest, ∀ a ∈ ((build d).run G).1.walk,
      a.Fits signatures parameters) (F : Forest) :
      ∀ c ∈ ((buildOption o).run F).1.toList, ∀ a ∈ c.walk, a.Fits signatures parameters := by
    intro c hc
    obtain ⟨d, hd, G, rfl⟩ := exists_build_of_buildOption hc
    exact ih d hd G
  induction h generalizing F with
  | block line _ ih => exact fits_walk trivial (hlist ih F)
  | unknown line name => exact fits_walk trivial (List.forall_mem_nil _)
  | @parameter line name i h => exact fits_walk ⟨Int.natCast_nonneg i, h⟩ (List.forall_mem_nil _)
  | literal line h => exact fits_walk trivial (List.forall_mem_nil _)
  | binary line operator _ _ ihl ihr =>
    refine fits_walk trivial fun c hc => ?_
    exact (List.mem_append.mp hc).elim (hoption ihl F c) (hoption ihr _ c)
  | ret line _ ih => exact fits_walk trivial (hoption ih F)
  | branch line _ _ _ ihc iht ihe =>
    refine fits_walk trivial fun c hc => ?_
    obtain hc | hc := List.mem_append.mp hc
    · exact (List.mem_append.mp hc).elim (hoption ihc F c) (hoption iht _ c)
    · exact hoption ihe _ c hc
  | @call line name arguments target _ ht ih =>
    refine fits_walk ?_ (hlist ih F)
    cases target with
    | none => trivial
    | some key =>
      obtain ⟨s, hs, hb⟩ := ht key rfl
      have hall := forall₂_buildList arguments F
      refine ⟨s, hs, hall.length_eq ▸ hb.1, fun a ha => ?_⟩
      obtain ⟨d, hd, G, rfl⟩ := exists_of_forall₂ (List.forall₂_drop s.parameters.length hall) ha
      exact isCall_build (hb.2 d hd) G

end Forest

/-- The function has the parameters of the signature, in their places, and a body that fits. -/
structure Function.Realizes (signatures : OrderedMap String Source.Signature) (f : Function)
    (s : Source.Signature) : Prop where
  length : f.parameters.length = s.parameters.length
  parameter : ∀ (i : Nat) name, s.parameters[i]? = some name →
    ∃ info, f.parameters[i]? = some (Artifact.reference info name (some i))
  fits : ∀ a ∈ f.artifact.walk, a.Fits signatures s.parameters

namespace Forest

open Artifact

variable {signatures : OrderedMap String Source.Signature} {F G : Forest}

theorem realizes_build (s : Source.Signature) {body : Draft} (h : body.Fits signatures s.parameters)
    (info : Info) (name qualified : String) (F G : Forest) :
    Function.Realizes signatures ⟨info, name, qualified, ((buildList s.drafts).run F).1,
      ((build body).run G).1⟩ s := by
  have hall := forall₂_buildList s.drafts F
  refine ⟨?_, fun i name hi => ?_, fits_walk trivial fun c hc => ?_⟩
  · rw [← hall.length_eq, Source.Signature.drafts, List.length_mapIdx]
  · have hd : s.drafts[i]? = some (.reference none name (some i)) := by
      rw [Source.Signature.drafts, List.getElem?_mapIdx, hi]
      rfl
    obtain ⟨hlt, hd⟩ := List.getElem?_eq_some_iff.mp hd
    obtain ⟨H, hH⟩ := hall.get hlt (hall.length_eq ▸ hlt)
    rw [List.get_eq_getElem, List.get_eq_getElem, hd] at hH
    exact ⟨_, List.getElem?_eq_some_iff.mpr ⟨hall.length_eq ▸ hlt, hH.symm⟩⟩
  · obtain hc | hc := List.mem_append.mp hc
    · obtain ⟨d, hd, H, rfl⟩ := exists_of_forall₂ hall hc
      exact fits_build (s.fits_drafts signatures d hd) H
    · rw [List.mem_singleton.mp hc]
      exact fits_build h G

theorem functions_build {s : Source.Signature} {d : Draft} (h : Source.Defines signatures s d)
    (hF : F.parents.size = F.nodes.size) : ∃ g : Function, g.Realizes signatures s ∧
      ((build d).run F).2.functions = F.functions.insert s.key g := by
  obtain ⟨line, name, qualified, hbody⟩ := h
  next body =>
  have hplain : Draft.isPlainList s.drafts = true :=
    Draft.isPlainList_of fun d hd => (s.fits_drafts signatures d hd).isPlain
  have hgrows := grows_buildList s.drafts hplain hF
  have hgrows' := grows_build body hbody.isPlain hgrows.sized
  refine ⟨_, realizes_build s hbody
    ⟨((build body).run ((buildList s.drafts).run F).2).2.nodes.size, line⟩ name qualified F
    ((buildList s.drafts).run F).2, ?_⟩
  rw [← hgrows.functions, ← hgrows'.functions]
  rfl

theorem isPlainFunction_of_defines {s : Source.Signature} {d : Draft}
    (h : Source.Defines signatures s d) : d.isPlainFunction = true := by
  obtain ⟨line, name, qualified, hbody⟩ := h
  exact Bool.and_eq_true_iff.mpr
    ⟨Draft.isPlainList_of fun d hd => (s.fits_drafts signatures d hd).isPlain, hbody.isPlain⟩

def Hosts (signatures : OrderedMap String Source.Signature) (F : Forest) : Prop :=
  ∀ e ∈ F.functions.entries, ∃ s, signatures.get? e.1 = some s ∧ e.2.Realizes signatures s

theorem hosts_build {s : Source.Signature} {d : Draft} (h : Source.Defines signatures s d)
    (hs : signatures.get? s.key = some s) (hF : F.parents.size = F.nodes.size)
    (hosts : F.Hosts signatures) : ((build d).run F).2.Hosts signatures := by
  obtain ⟨g, hg, he⟩ := functions_build h hF
  intro e hm
  rw [he] at hm
  obtain rfl | hm := OrderedMap.mem_insertEntry hm
  · exact ⟨s, hs, hg⟩
  · exact hosts e hm

theorem isSome_functions_build {s : Source.Signature} {d : Draft} (h : Source.Defines signatures s d)
    (hF : F.parents.size = F.nodes.size) {k : String}
    (hk : s.key = k ∨ (F.functions.get? k).isSome) :
    (((build d).run F).2.functions.get? k).isSome := by
  obtain ⟨g, -, he⟩ := functions_build h hF
  rw [he, OrderedMap.get?_insert]
  split
  · rfl
  · next hne => exact hk.resolve_left hne

theorem hosts_buildList {ss : List Source.Signature} {ds : List Draft}
    (h : List.Forall₂ (Source.Defines signatures) ss ds)
    (hs : ∀ s ∈ ss, signatures.get? s.key = some s) (hF : F.Tabled) (hosts : F.Hosts signatures) :
    ((buildList ds).run F).2.Hosts signatures ∧ ∀ k,
      (∃ s ∈ ss, s.key = k) ∨ (F.functions.get? k).isSome →
        (((buildList ds).run F).2.functions.get? k).isSome := by
  induction h generalizing F with
  | nil => exact ⟨hosts, fun k hk => hk.resolve_left fun h => by obtain ⟨s, hs, -⟩ := h; cases hs⟩
  | @cons s d ss ds hd _ ih =>
    obtain ⟨hs, hss⟩ := List.forall_mem_cons.mp hs
    obtain ⟨hh, hk⟩ := ih hss (tabled_build d (isPlainFunction_of_defines hd) hF)
      (hosts_build hd hs hF.sized hosts)
    refine ⟨hh, fun k h => hk k ?_⟩
    obtain ⟨s', hm, rfl⟩ | h := h
    · obtain rfl | hm := List.mem_cons.mp hm
      · exact .inr (isSome_functions_build hd hF.sized (.inl rfl))
      · exact .inl ⟨s', hm, rfl⟩
    · exact .inr (isSome_functions_build hd hF.sized (.inr h))

end Forest

namespace Session

/-- No node occurs twice, and every node below the module knows the node it is a child of; a reference to
a parameter has its name and its place; and a call that resolves has a function of the module for its
target, an argument for each parameter of it, and after these nothing but calls. -/
structure WellFormed (s : Session) : Prop where
  sound : s.forest.Sound
  held : s.forest.Holds s.module
  module : ∃ info, s.module = moduleOf info s.functions
  table : s.forest.functions.values = s.functions
  unshared : s.Unshared
  root : s.forest.parent? s.module.id = none
  reference : ∀ f ∈ s.functions, ∀ info name (index : Int),
    .reference info name (some index) ∈ f.artifact.walk → 0 ≤ index ∧ index < f.parameters.length ∧
      ∃ info', f.parameters[index.toNat]? = some (Artifact.reference info' name (some index))
  call : ∀ info name arguments key, .call info name arguments (some key) ∈ s.module.walk →
    ∃ g ∈ s.functions, s.forest.target? (.call info name arguments (some key)) = some g ∧
      g.parameters.length ≤ arguments.length ∧
        ∀ a ∈ arguments.drop g.parameters.length, a.isCall = true

/-- The session has the functions that the statements define, and no others. -/
structure Implements (s : Session) (statements : List Source.Stmt) : Prop where
  hosts : s.forest.Hosts (Source.Signature.collect statements)
  entered : ∀ signature ∈ (Source.Signature.collect statements).values,
    (s.forest.functions.get? signature.key).isSome

theorem implements_start {statements : List Source.Stmt} {drafts : List Draft}
    (h : List.Forall₂ (Source.Defines (Source.Signature.collect statements))
      (Source.Signature.collect statements).values drafts) (durations : Durations) :
    (start drafts durations).Implements statements := by
  obtain ⟨hosts, entered⟩ := Forest.hosts_buildList h (fun s hs => Source.Signature.get?_collect hs)
    Forest.tabled_empty (List.forall_mem_nil _)
  exact ⟨hosts, fun s hs => entered s.key (.inl ⟨s, hs, rfl⟩)⟩

theorem exists_function_of_mem_walk {info : Info} {functions : List Function} {a : Artifact}
    (ha : a ∈ (moduleOf info functions).walk) :
    a = moduleOf info functions ∨ ∃ f ∈ functions, a ∈ f.artifact.walk := by
  rw [Artifact.walk_eq, List.mem_cons, Artifact.walkFrom_eq_flatMap] at ha
  refine ha.imp_right fun ha => ?_
  obtain ⟨b, hb, ha⟩ := List.mem_flatMap.mp ha
  obtain ⟨f, hf, rfl⟩ := List.mem_map.mp hb
  exact ⟨f, hf, ha⟩

theorem wellFormed_start {statements : List Source.Stmt} {drafts : List Draft}
    (h : List.Forall₂ (Source.Defines (Source.Signature.collect statements))
      (Source.Signature.collect statements).values drafts) (durations : Durations) :
    (start drafts durations).WellFormed := by
  have hplain : drafts.all Draft.isPlainFunction = true := by
    rw [List.all_eq_true]
    intro d hd
    obtain ⟨s, -, hs⟩ := exists_of_forall₂ h hd
    exact Forest.isPlainFunction_of_defines hs
  have himplements := implements_start h durations
  have hrealized : ∀ f ∈ (start drafts durations).functions, ∃ s,
      f.Realizes (Source.Signature.collect statements) s := by
    intro f hf
    obtain ⟨e, he, rfl⟩ := List.mem_map.mp hf
    obtain ⟨s, -, hs⟩ := himplements.hosts e he
    exact ⟨s, hs⟩
  refine ⟨(sound_start drafts durations).1, (sound_start drafts durations).2, ⟨_, rfl⟩, rfl,
    unshared_start drafts durations hplain,
    (fresh_start drafts durations hplain).orphan _ List.mem_cons_self, ?_, ?_⟩
  · intro f hf info name index hm
    obtain ⟨s, hs⟩ := hrealized f hf
    obtain ⟨h0, hname⟩ := hs.fits _ hm
    obtain ⟨info', hp⟩ := hs.parameter _ _ hname
    have hlt := (List.getElem?_eq_some_iff.mp hp).1
    refine ⟨h0, by omega, info', ?_⟩
    rw [hp, Int.toNat_of_nonneg h0]
  · intro info name arguments key hm
    obtain he | ⟨f, hf, hm⟩ := exists_function_of_mem_walk hm
    · cases he
    obtain ⟨s, hs⟩ := hrealized f hf
    obtain ⟨t, ht, hlength, hcalls⟩ := hs.fits _ hm
    obtain ⟨g, hg⟩ := Option.isSome_iff_exists.mp
      (himplements.entered t (OrderedMap.mem_values_of_get? ht))
    rw [Source.Signature.key_of_collect ht] at hg
    obtain ⟨t', ht', hreal⟩ := himplements.hosts _ (OrderedMap.mem_entries_of_get? hg)
    obtain rfl := Option.some.inj (ht.symm.trans ht')
    rw [← hreal.length] at hlength hcalls
    exact ⟨g, OrderedMap.mem_values_of_get? hg, hg, hlength, hcalls⟩

theorem WellFormed.exists_program {s : Session} (h : s.WellFormed) :
    ∃ P : Program, P.forest = s.forest ∧ P.module = s.module ∧ P.functions = s.functions := by
  obtain ⟨info, hm⟩ := h.module
  obtain ⟨hn, hp⟩ := h.unshared
  have held := h.held
  rw [hm] at hn hp held
  exact ⟨⟨s.forest, info, s.functions, h.sound, held, hn, hp, fun g hg => h.table ▸ hg⟩, rfl, hm.symm,
    rfl⟩

theorem WellFormed.upright {s : Session} (h : s.WellFormed) {T : Value → Prop}
    (hl : ∀ info v place, .literal info v place ∈ s.module.walk → T v) : s.module.Upright T := by
  refine ⟨fun i name index hr => ?_, hl⟩
  obtain ⟨info, hm⟩ := h.module
  rw [hm] at hr
  obtain he | ⟨f, hf, hr⟩ := exists_function_of_mem_walk hr
  · cases he
  · exact (h.reference f hf i name index hr).1

theorem wellFormed_ofSource (module source : String) (durations : Durations) :
    Meets (Source.Refused source) (ofSource module source durations) fun s =>
      (∃ statements, Source.readModule? source.toList = some statements ∧ s.Implements statements) ∧
        s.WellFormed ∧ s.insights = {} := by
  refine meets_bind (Source.loads module source) fun drafts h => ?_
  obtain ⟨statements, hr, h⟩ := h
  exact meets_pure ⟨⟨statements, hr, implements_start h durations⟩, wellFormed_start h durations, rfl⟩

end Session

end CallTime

import Mathlib
import CallTime.Proofs.Measured

/-!
What an analysis writes.

Functions are given arguments, paths and signatures, calls are given marks and durations with their
source, paths are given durations, and nothing else is written anywhere. Main statement: this holds of
every analysis, however it ends, and one that does not go into called functions writes to calls, to
signatures and to paths that are there below the analysed node only.
-/

namespace CallTime

theorem OrderedMap.erase_insert {α β : Type} [DecidableEq α] (m : OrderedMap α β) (k : α) (v : β) :
    (m.insert k v).erase k = m.erase k := by
  obtain ⟨es⟩ := m
  simp only [insert, erase, OrderedMap.mk.injEq]
  induction es with
  | nil => simp [insertEntry]
  | cons e es ih =>
    by_cases he : e.1 = k
    · simp [insertEntry, he]
    · simpa [insertEntry, he] using ih

theorem OrderedMap.erase_erase {α β : Type} [DecidableEq α] (m : OrderedMap α β) (k : α) :
    (m.erase k).erase k = m.erase k := by
  simp [erase]

namespace Path

def untimed (p : Path) : Path := { p with data := p.data.remove .pathDuration }

theorem untimed_addUp (p : Path) (durations : List Int) :
    (Analysis.addUp p durations).untimed = p.untimed := by
  simp only [untimed, Analysis.addUp, InsightData.set]
  split
  · rfl
  · simp only [InsightData.remove, OrderedMap.erase_insert]

theorem untimed_forgetDerived (p : Path) : (Analysis.forgetDerived p).untimed = p.untimed := by
  unfold Analysis.forgetDerived
  split
  · split
    · simp only [untimed, InsightData.remove, OrderedMap.erase_erase]
    · rfl
  · rfl

theorem map_untimed_updated {ps : List Path} {ds : List (List Int)} (h : ps.length = ds.length) :
    (if ds.all List.isEmpty then ps.map Analysis.forgetDerived
      else ps.zipWith Analysis.addUp ds).map untimed = ps.map untimed := by
  split
  · simp [untimed_forgetDerived]
  · clear * - h
    induction ps generalizing ds with
    | nil => rfl
    | cons p ps ih =>
      obtain _ | ⟨d, ds⟩ := ds
      · cases h
      · simp [untimed_addUp, ih (Nat.succ.inj h)]

/-- How the paths of a function can change. Those that are there stay, with other durations at most, and
those that are built carry nothing but a duration. Unless `summed`, no duration is written. -/
inductive Changes (summed : Prop) : Option (List Path) → Option (List Path) → Prop
  | absent : Changes summed none none
  | built {qs : List Path} (h : ∀ q ∈ qs, q.untimed.data = {}) (hs : ¬summed → ∀ q ∈ qs, q.data = {}) :
    Changes summed none (some qs)
  | cached {ps qs : List Path} (h : qs.map untimed = ps.map untimed) (hs : ¬summed → qs = ps) :
    Changes summed (some ps) (some qs)

theorem Changes.refl (summed : Prop) (o : Option (List Path)) : Changes summed o o := by
  cases o with
  | none => exact .absent
  | some ps => exact .cached rfl fun _ => rfl

theorem Changes.trans {summed : Prop} {o o' o'' : Option (List Path)} (h : Changes summed o o')
    (h' : Changes summed o' o'') : Changes summed o o'' := by
  cases h with
  | absent => exact h'
  | @built qs hq hs =>
    cases h' with
    | @cached _ rs hr hs' =>
      refine .built (fun r hm => ?_) fun hn => ?_
      · have hm : r.untimed ∈ qs.map untimed := hr ▸ List.mem_map_of_mem hm
        obtain ⟨q, hqm, he⟩ := List.mem_map.mp hm
        rw [← he]
        exact hq q hqm
      · rw [hs' hn]
        exact hs hn
  | @cached ps qs hp hs =>
    cases h' with
    | @cached _ rs hr hs' =>
      refine .cached (hr.trans hp) fun hn => ?_
      rw [hs' hn, hs hn]

end Path

namespace Analysis

open Run

/-- The analysis may write the key on the node, where it visits the nodes in `V`. -/
inductive Writable (V : Artifact → Prop) : Artifact → Key → Prop
  | arguments (g : Function) : Writable V g.artifact .callArgs
  | paths (g : Function) : Writable V g.artifact .paths
  | signature {f : Function} (h : V f.artifact) : Writable V f.artifact .analyzedArgs
  | mark {call : Artifact} (hc : call.isCall = true) (h : V call) : Writable V call .recursiveCall
  | duration {call : Artifact} (hc : call.isCall = true) (h : V call) :
    Writable V call .functionDuration
  | source {call : Artifact} (hc : call.isCall = true) (h : V call) : Writable V call .durationSource

/-- What is known changes at most where the analysis may write, and there in the way it does. -/
structure Effect (forest : Forest) (V : Artifact → Prop) (s t : Insights) : Prop where
  spares : ∀ a, forest.Holds a → ∀ k, ¬Writable V a k → t.get? a.id k = s.get? a.id k
  untouched : ∀ a, forest.Holds a → (∀ k, ¬Writable V a k) → t.data a.id = s.data a.id
  marks : ∀ i, t.get? i .recursiveCall = s.get? i .recursiveCall ∨
    t.get? i .recursiveCall = some recursiveMark
  paths : ∀ f, forest.Holds f.artifact → Path.Changes (V f.artifact) (s.paths? f) (t.paths? f)

variable {forest : Forest} {V : Artifact → Prop}

theorem Effect.refl (s : Insights) : Effect forest V s s where
  spares _ _ _ _ := rfl
  untouched _ _ _ := rfl
  marks _ := .inl rfl
  paths _ _ := .refl _ _

theorem Effect.trans {s t u : Insights} (h : Effect forest V s t) (h' : Effect forest V t u) :
    Effect forest V s u where
  spares a ha k hk := (h'.spares a ha k hk).trans (h.spares a ha k hk)
  untouched a ha hk := (h'.untouched a ha hk).trans (h.untouched a ha hk)
  marks i := by
    obtain hu | hu := h'.marks i
    · rw [hu]
      exact h.marks i
    · exact .inr hu
  paths f hf := (h.paths f hf).trans (h'.paths f hf)

theorem frame_effect : Frame (Between (Effect forest V)) := frame_between Effect.refl Effect.trans

theorem effect_of_write {s t : Insights} {b : Artifact} {k : Key} (hb : forest.Holds b)
    (hw : Writable V b k) (hd : ∀ i, b.id ≠ i → t.data i = s.data i)
    (hk : ∀ i k', b.id ≠ i ∨ k ≠ k' → t.get? i k' = s.get? i k')
    (hm : k = .recursiveCall → t.get? b.id k = some recursiveMark)
    (hp : ∀ f, f.artifact = b → k = .paths → Path.Changes (V b) (s.paths? f) (t.paths? f)) :
    Effect forest V s t where
  spares a ha k' hn := by
    apply hk
    by_cases hi : b.id = a.id
    · right
      rintro rfl
      exact hn (hb.eq ha hi ▸ hw)
    · exact .inl hi
  untouched a ha hn := by
    apply hd
    intro hi
    exact hn k (hb.eq ha hi ▸ hw)
  marks i := by
    by_cases h : b.id = i ∧ k = .recursiveCall
    · obtain ⟨rfl, rfl⟩ := h
      exact .inr (hm rfl)
    · exact .inl (hk i _ (Decidable.not_and_iff_or_not.mp h))
  paths f hf := by
    by_cases h : b.id = f.id ∧ k = .paths
    · have hfb : f.artifact = b := hf.eq hb h.1.symm
      rw [hfb]
      exact hp f hfb h.2
    · rw [Insights.paths?_congr (hk f.id _ (Decidable.not_and_iff_or_not.mp h))]
      exact .refl _ _

theorem effect_put {b : Artifact} {k : Key} (hb : forest.Holds b) (hw : Writable V b k) (s : State)
    (e : Entry Note) (hm : k = .recursiveCall → e = recursiveMark)
    (hp : ∀ f, f.artifact = b → k = .paths →
      Path.Changes (V b) (s.insights.paths? f) ((s.put b.id k e).insights.paths? f)) :
    Between (Effect forest V) s (s.put b.id k e) := by
  refine effect_of_write hb hw (fun i hi => ?_) (fun i k' h => s.get?_put_of_ne h e) (fun h => ?_) hp
  · rw [State.put, Insights.data_write, if_neg hi]
  · rw [hm h]
    exact s.get?_put_note b.id k _

theorem tolerates_effect {b : Artifact} {k : Key} (hb : forest.Holds b) (hw : Writable V b k)
    (hk : k ≠ .recursiveCall ∧ k ≠ .paths) : Tolerates (Between (Effect forest V)) b.id k where
  put s e := effect_put hb hw s e (fun h => absurd h hk.1) fun _ _ h => absurd h hk.2
  drop _ s := by
    refine effect_of_write hb hw (fun i hi => ?_) (fun i k' h => ?_) (fun h => absurd h hk.1)
      fun _ _ h => absurd h hk.2
    · rw [State.drop, Insights.data_write, if_neg hi]
    · rw [s.get?_drop, if_neg]
      rintro ⟨hi, hk'⟩
      exact h.elim (fun h => h hi) fun h => h hk'

theorem effect_put_paths {f : Function} (hf : forest.Holds f.artifact) (s : State) {ps : List Path}
    (h : Path.Changes (V f.artifact) (s.insights.paths? f) (some ps)) :
    Between (Effect forest V) s (s.put f.id .paths (.note (.paths ps))) := by
  refine effect_put hf (.paths f) s _ (fun h => absurd h (by decide)) fun g hg _ => ?_
  obtain rfl := Function.artifact_injective hg
  change Path.Changes _ _ ((s.put g.id .paths _).insights.paths? g)
  rw [s.paths?_put g ps]
  exact h

theorem effect_pathsOf {f : Function} (hf : forest.Holds f.artifact) :
    Respects (Between (Effect forest V)) (pathsOf forest f) := by
  intro s
  obtain ⟨ps, -, h⟩ | ⟨hn, ⟨e, c, -, h⟩ | ⟨ps, c, es, hps, h⟩⟩ := pathsOf_cases forest f s <;> rw [h]
  · exact Effect.refl _
  · exact Effect.refl _
  · have hbare := Path.bare_of_enumerate hps
    refine effect_put_paths hf s ?_
    rw [hn]
    refine .built (fun p hp => ?_) fun _ => hbare
    rw [Path.untimed, hbare p hp]
    rfl

theorem effect_pathDurations {f : Function} (hf : forest.Holds f.artifact) (hV : V f.artifact) :
    Respects (Between (Effect forest V)) (pathDurations f) := by
  intro s
  obtain ⟨-, h⟩ | ⟨ps, hps, ⟨e, -, h⟩ | ⟨ds, es, hds, h⟩⟩ := pathDurations_cases f s <;> rw [h]
  · exact Effect.refl _
  · exact Effect.refl _
  · refine effect_put_paths hf s ?_
    rw [hps]
    exact .cached (Path.map_untimed_updated (forall₂_of_mapM hds).length_eq) fun hn => absurd hV hn

/-- The nodes that an analysis can visit: they are in the forest with their children and, where called
functions are analysed, with the functions that they call. -/
structure Region (setup : Setup) (V : Artifact → Prop) : Prop where
  held : ∀ a, V a → setup.forest.Holds a
  children : ∀ a, V a → ∀ c ∈ a.children, V c
  targets : setup.settings.analyzeResolved = true → ∀ a g, V a →
    setup.forest.target? a = some g → V g.artifact

variable {setup : Setup}

theorem allows_effect (sound : setup.forest.Sound) {a : Artifact} (ha : setup.forest.Holds a)
    (hV : V a) : Allows (Between (Effect setup.forest V)) setup a := by
  refine ⟨fun hc => ?_, fun g hg => ?_, fun g hg => effect_pathsOf (sound.target hg), fun g hg => ?_⟩
  · exact respects_markRecursive_of frame_effect setup fun s =>
      effect_put ha (.mark hc hV) s _ (fun _ => rfl) fun _ _ h => absurd h (by decide)
  · exact respects_propagate frame_effect _ a
      (tolerates_effect (sound.target hg) (.arguments g) (by decide))
  · have hc : a.isCall = true := by
      cases a with
      | call => rfl
      | _ => cases hg
    have hD := tolerates_effect ha (.duration hc hV) (by decide)
    have hS := tolerates_effect ha (.source hc hV) (by decide)
    exact respects_settle_of frame_effect setup (effect_pathsOf (sound.target hg))
      (respects_storeDuration frame_effect hD hS) (respects_dropDerived frame_effect hD hS)

theorem allowsFunction_effect {f : Function} (hf : setup.forest.Holds f.artifact)
    (hV : V f.artifact) : AllowsFunction (Between (Effect setup.forest V)) setup f where
  paths := effect_pathsOf hf
  signature := respects_noteSignature frame_effect (tolerates_effect hf (.signature hV) (by decide))
  sums := effect_pathDurations hf hV

theorem Region.effect (R : Region setup V) (sound : setup.forest.Sound) {a : Artifact} (ha : V a)
    (insights : Insights) : Effect setup.forest V insights (analyze setup insights a).insights := by
  have hnode (b : Artifact) (hb : V b) := allows_effect sound (R.held b hb) hb
  have henter (depth : Nat) {f : Function} (hf : V f.artifact) :
      Respects (Between (Effect setup.forest V)) (analyzeFunction setup depth f) :=
    respects_analyzeFunction_of frame_effect R.children R.targets hnode
      (fun f hf => allowsFunction_effect (R.held _ hf) hf) depth hf
  unfold analyze
  split
  · exact Effect.refl _
  · next clock _ =>
    cases hf : Function.ofArtifact? a with
    | some f =>
      have hfa : f.artifact = a := by
        cases a <;> cases hf
        rfl
      exact respects_bind frame_effect (henter _ (hfa ▸ ha))
        (fun _ => respects_bind frame_effect (respects_insights frame_effect) fun _ =>
          respects_pure frame_effect _) { insights, clock }
    | none =>
      have hV : ∀ b ∈ Artifact.walkFrom [a], V b :=
        Artifact.forall_mem_walkFrom R.children fun b hb => List.mem_singleton.mp hb ▸ ha
      refine respects_bind frame_effect (respects_visitFrom frame_effect a.id [a]
        (fun b hb => hnode b (hV b hb)) fun b hb g hg => ?_)
        (fun _ => respects_pure frame_effect _) { insights, clock }
      obtain rfl | ⟨hon, hg⟩ := hg
      · exact henter _ (hV _ hb)
      · exact henter _ (R.targets hon b g (hV b hb) hg)

theorem region_holds (sound : setup.forest.Sound) : Region setup setup.forest.Holds where
  held _ h := h
  children := sound.closed
  targets _ _ _ _ hg := sound.target hg

theorem region_walk (sound : setup.forest.Sound) (hoff : setup.settings.analyzeResolved = false)
    {a : Artifact} (ha : setup.forest.Holds a) : Region setup (· ∈ a.walk) where
  held := Artifact.forall_mem_walkFrom sound.closed fun _ hb => List.mem_singleton.mp hb ▸ ha
  children _ hb _ hc := Artifact.mem_walk_children hb hc
  targets hon := absurd hon (by simp [hoff])

theorem Effect.other {s t : Insights} (h : Effect forest V s t) {a : Artifact} (ha : forest.Holds a)
    (hf : a.isFunction = false) (hc : a.isCall = false) : t.data a.id = s.data a.id := by
  refine h.untouched a ha fun k hw => ?_
  cases hw with
  | arguments | paths | signature => cases hf
  | mark h' | duration h' | source h' => cases hc.symm.trans h'

theorem Effect.function {s t : Insights} (h : Effect forest V s t) {f : Function}
    (hf : forest.Holds f.artifact) {k : Key} (hk : k ∉ [Key.callArgs, .paths, .analyzedArgs]) :
    t.get? f.id k = s.get? f.id k := by
  refine h.spares f.artifact hf k fun hw => hk ?_
  generalize hb : f.artifact = b at hw
  cases hw with
  | mark h' | duration h' | source h' =>
    subst hb
    cases h'
  | _ => decide

theorem Effect.call {s t : Insights} (h : Effect forest V s t) {c : Artifact} (hc : forest.Holds c)
    (hcall : c.isCall = true) {k : Key}
    (hk : k ∉ [Key.recursiveCall, .functionDuration, .durationSource]) :
    t.get? c.id k = s.get? c.id k := by
  refine h.spares c hc k fun hw => hk ?_
  cases hw with
  | arguments | paths | signature => cases hcall
  | _ => decide

theorem Effect.call_of_outside {s t : Insights} (h : Effect forest V s t) {c : Artifact}
    (hc : forest.Holds c) (hcall : c.isCall = true) (hV : ¬V c) : t.data c.id = s.data c.id := by
  refine h.untouched c hc fun k hw => ?_
  cases hw with
  | arguments | paths | signature => cases hcall
  | mark _ h' | duration _ h' | source _ h' => exact hV h'

theorem Effect.signature_of_outside {s t : Insights} (h : Effect forest V s t) {f : Function}
    (hf : forest.Holds f.artifact) (hV : ¬V f.artifact) :
    t.get? f.id .analyzedArgs = s.get? f.id .analyzedArgs := by
  refine h.spares f.artifact hf _ fun hw => ?_
  generalize hb : f.artifact = b at hw hV
  generalize hk : Key.analyzedArgs = k at hw
  cases hw with
  | signature h' => exact hV h'
  | _ => exact absurd hk (by decide)

/-- Whatever is analysed, in whatever configuration and however it ends, nodes that are neither functions
nor calls keep what is known about them, functions and calls keep all but three keys each, a mark is never
taken away, and paths keep all but their durations. If called functions are not analysed, no call outside
of the analysed node changes, no path there, and no signature. -/
theorem analysis_confined (setup : Setup) (sound : setup.forest.Sound) {a : Artifact}
    (ha : setup.forest.Holds a) (s t : Insights) (ht : t = (analyze setup s a).insights) :
    (∀ b, setup.forest.Holds b → b.isFunction = false → b.isCall = false →
      t.data b.id = s.data b.id) ∧
    (∀ f : Function, setup.forest.Holds f.artifact →
      (∀ k ∉ [Key.callArgs, .paths, .analyzedArgs], t.get? f.id k = s.get? f.id k) ∧
        Path.Changes True (s.paths? f) (t.paths? f)) ∧
    (∀ c, setup.forest.Holds c → c.isCall = true →
      (∀ k ∉ [Key.recursiveCall, .functionDuration, .durationSource],
        t.get? c.id k = s.get? c.id k) ∧
        (t.get? c.id .recursiveCall = s.get? c.id .recursiveCall ∨
          t.get? c.id .recursiveCall = some recursiveMark)) ∧
    (setup.settings.analyzeResolved = false →
      (∀ c, setup.forest.Holds c → c.isCall = true → c ∉ a.walk → t.data c.id = s.data c.id) ∧
      ∀ f : Function, setup.forest.Holds f.artifact → f.artifact ∉ a.walk →
        Path.Changes False (s.paths? f) (t.paths? f) ∧
          t.get? f.id .analyzedArgs = s.get? f.id .analyzedArgs) := by
  subst ht
  have h := (region_holds sound).effect sound ha s
  refine ⟨fun b hb hf hc => h.other hb hf hc, fun f hf => ⟨fun k hk => h.function hf hk, ?_⟩,
    fun c hc hcall => ⟨fun k hk => h.call hc hcall hk, h.marks c.id⟩, fun hoff => ?_⟩
  · have hp := h.paths f hf
    rwa [eq_true hf] at hp
  · have h := (region_walk sound hoff ha).effect sound a.mem_walk_self s
    refine ⟨fun c hc hcall hout => h.call_of_outside hc hcall hout, fun f hf hout =>
      ⟨?_, h.signature_of_outside hf hout⟩⟩
    have hp := h.paths f hf
    rwa [eq_false hout] at hp

/-- The call that `pong` makes. -/
def callOfPing : Artifact := .call ⟨3, none⟩ (some "ping") [] (some "ping")

def dated : Insights :=
  ({} : Insights).write callOfPing.id
    ⟨⟨[(.functionDuration, .insight ⟨.functionDuration, .int 9, true⟩)]⟩⟩

def pingRun (analyzeResolved : Bool) : Outcome :=
  analyze {
    forest := (Session.start pingPong {}).forest
    settings := { analyzeResolved } } dated ping.artifact

/-- The duration is taken back when `pong` is analysed on the way, and else it is not touched. -/
theorem pingPong_confined :
    (pingRun true).insights.duration? callOfPing.id = none ∧
      (pingRun false).insights.data callOfPing.id = dated.data callOfPing.id := by
  have hs := (Session.sound_start pingPong {}).1
  have hping : (Session.start pingPong {}).forest.Holds ping.artifact := by cbv
  have hcall : (Session.start pingPong {}).forest.Holds callOfPing := by cbv
  have hout : callOfPing ∉ ping.artifact.walk := by
    intro hm
    have hid : ping.artifact.walk.all (·.id ≠ 3) = true := by cbv
    exact absurd rfl (of_decide_eq_true (List.all_eq_true.mp hid _ hm))
  refine ⟨by cbv, ?_⟩
  rw [pingRun]
  generalize Session.start pingPong {} = session at hs hping hcall ⊢
  exact ((analysis_confined _ hs hping dated _ rfl).2.2.2 rfl).1 callOfPing hcall rfl hout

end Analysis

end CallTime

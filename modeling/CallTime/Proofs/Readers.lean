import CallTime.Format.Json
import CallTime.Format.Toml.Read
import CallTime.Proofs.Faults

/-!
How the texts of settings and durations are read.

A reader leaves an end of the text that it was given. Main statement: a text is read, or it is malformed,
or a whole number in it has too many digits.
-/

namespace CallTime

/-- Somewhere in the text stand more digits than a number may have, perhaps with underscores between
them. -/
def LongNumber (cs : List Char) : Prop :=
  ∃ run, run <:+: cs ∧ (∀ c ∈ run, isDigit c = true ∨ c = '_') ∧ maxDigits < run.countP isDigit

theorem LongNumber.of_suffix {cs rest : List Char} (h : LongNumber rest) (hs : rest <:+ cs) :
    LongNumber cs := by
  obtain ⟨run, hr, hrun⟩ := h
  exact ⟨run, hr.trans hs.isInfix, hrun⟩

inductive Unread (cs : List Char) : Fault → Prop
  | malformed : Unread cs .malformed
  | long (h : LongNumber cs) : Unread cs .wrongValue

theorem Unread.of_suffix {cs ds : List Char} (hs : ds <:+ cs) {e : Fault} (h : Unread ds e) :
    Unread cs e := by
  cases h with
  | malformed => exact .malformed
  | long h => exact .long (h.of_suffix hs)

abbrev Leaves {α : Type} (cs : List Char) (x : Except Fault (α × List Char)) : Prop :=
  Meets (Unread cs) x fun r => r.2 <:+ cs

theorem Leaves.of_suffix {α : Type} {cs rest : List Char} {x : Except Fault (α × List Char)}
    (h : Leaves rest x) (hs : rest <:+ cs) : Leaves cs x :=
  (Meets.widen h fun _ => Unread.of_suffix hs).mono fun _ hr => hr.trans hs

namespace JsonText

variable {cs rest : List Char}

theorem suffix_skip (cs : List Char) : skip cs <:+ cs := List.dropWhile_suffix _

theorem suffix_of_skip {c : Char} (h : skip cs = c :: rest) : rest <:+ cs :=
  (List.suffix_cons c rest).trans (h ▸ suffix_skip cs)

theorem suffix_units {ns : List Nat} (h : units cs = some (ns, rest)) : rest <:+ cs := by
  fun_induction units cs generalizing ns with
  | case1 => cases h
  | case2 rest' =>
    cases h
    exact List.suffix_cons _ _
  | case3 a b c d tail ih =>
    obtain ⟨n, -, h⟩ := Option.bind_eq_some_iff.mp h
    obtain ⟨⟨ms, r⟩, hr, h⟩ := Option.bind_eq_some_iff.mp h
    cases h
    exact (ih hr).trans (List.suffix_append ['\\', 'u', a, b, c, d] tail)
  | case4 c tail _ ih =>
    obtain ⟨n, -, h⟩ := Option.bind_eq_some_iff.mp h
    obtain ⟨⟨ms, r⟩, hr, h⟩ := Option.bind_eq_some_iff.mp h
    cases h
    exact (ih hr).trans (List.suffix_append ['\\', c] tail)
  | case5 => cases h
  | case6 c tail _ _ _ _ ih =>
    obtain ⟨⟨ms, r⟩, hr, h⟩ := Option.bind_eq_some_iff.mp h
    cases h
    exact (ih hr).trans (List.suffix_cons c tail)

theorem suffix_string? {s : Text} (h : string? cs = some (s, rest)) : rest <:+ cs := by
  obtain ⟨⟨ns, r⟩, hr, h⟩ := Option.bind_eq_some_iff.mp h
  cases h
  exact suffix_units hr

theorem suffix_fraction (cs : List Char) : (fraction cs).2 <:+ cs := by
  unfold fraction
  split
  · dsimp only
    split
    · exact List.suffix_rfl
    · exact (List.dropWhile_suffix _).trans (List.suffix_cons _ _)
  · exact List.suffix_rfl

theorem suffix_exponent? {e : Int} (h : exponent? cs = some (e, rest)) : rest <:+ cs := by
  unfold exponent? at h
  split at h
  · next c tail =>
    refine List.IsSuffix.trans ?_ (List.suffix_cons c tail)
    dsimp only at h
    split at h
    · split at h <;> split at h <;> cases h
      · exact (List.dropWhile_suffix _).trans (List.suffix_cons _ _)
      · exact (List.dropWhile_suffix _).trans (List.suffix_cons _ _)
      · exact List.dropWhile_suffix _
    · cases h
  · cases h

theorem digits_takeWhile (cs : List Char) : ∀ c ∈ cs.takeWhile isDigit, isDigit c = true :=
  List.all_eq_true.mp (List.all_takeWhile)

theorem leaves_number (negative : Bool) (cs : List Char) : Leaves cs (number negative cs) := by
  unfold number
  extract_lets whole
  obtain ⟨hwhole, hdigits⟩ : whole <+: cs ∧ ∀ c ∈ whole, isDigit c = true := by
    unfold whole
    split
    · exact ⟨⟨_, rfl⟩, fun c hc => by rw [List.mem_singleton.mp hc]; decide⟩
    · exact ⟨List.takeWhile_prefix _, digits_takeWhile cs⟩
  clear_value whole
  have hrest : (fraction (cs.drop whole.length)).2 <:+ cs :=
    (suffix_fraction _).trans (List.drop_suffix _ _)
  dsimp only
  split
  · exact meets_error .malformed
  · split
    · next he => exact meets_ok ((suffix_exponent? he).trans hrest)
    · refine meets_ite (meets_ok hrest) ?_
      split
      · next hlong =>
        refine meets_error (.long ⟨whole, hwhole.isInfix, fun c hc => .inl (hdigits c hc), ?_⟩)
        rwa [List.countP_eq_length.mpr hdigits]
      · exact meets_ok hrest

theorem leaves_scalar (cs : List Char) : Leaves cs (scalar cs) := by
  unfold scalar
  split
  · exact meets_ok (List.drop_suffix _ _)
  · split
    · exact (leaves_number true _).of_suffix (List.suffix_cons _ _)
    · exact leaves_number false cs

/-- By induction on the fuel, for values, items and members together. -/
theorem leaves (fuel : Nat) : (∀ cs, Leaves cs (value fuel cs)) ∧
    (∀ cs, Leaves cs (items fuel cs)) ∧ ∀ cs, Leaves cs (members fuel cs) := by
  induction fuel with
  | zero =>
    exact ⟨fun _ => meets_error .malformed, fun _ => meets_error .malformed,
      fun _ => meets_error .malformed⟩
  | succ fuel ih =>
    obtain ⟨ihv, ihi, ihm⟩ := ih
    refine ⟨fun cs => ?_, fun cs => ?_, fun cs => ?_⟩
    · unfold value
      split
      · split
        · next hs => exact meets_ok ((suffix_string? hs).trans (List.suffix_cons _ _))
        · exact meets_error .malformed
      · split
        · next hs => exact meets_ok ((suffix_of_skip hs).trans (List.suffix_cons _ _))
        · refine meets_bind ((ihi _).of_suffix ((suffix_skip _).trans (List.suffix_cons _ _))) ?_
          exact fun r hr => meets_pure hr
      · split
        · next hs => exact meets_ok ((suffix_of_skip hs).trans (List.suffix_cons _ _))
        · refine meets_bind ((ihm _).of_suffix ((suffix_skip _).trans (List.suffix_cons _ _))) ?_
          exact fun r hr => meets_pure hr
      · exact leaves_scalar cs
    · refine meets_bind (ihv cs) fun r hr => ?_
      dsimp only
      split
      · next hs => exact meets_pure ((suffix_of_skip hs).trans hr)
      · next hs =>
        have htail := (suffix_skip _).trans ((suffix_of_skip hs).trans hr)
        exact meets_bind ((ihi _).of_suffix htail) fun r' hr' => meets_pure hr'
      · exact meets_error .malformed
    · unfold members
      split
      · next tail =>
        split
        · next rest hs =>
          have hrest := (suffix_string? hs).trans (List.suffix_cons '"' tail)
          split
          · next hc =>
            have hvalue := (suffix_skip _).trans ((suffix_of_skip hc).trans hrest)
            refine meets_bind ((ihv _).of_suffix hvalue) fun r hr => ?_
            dsimp only
            split
            · next hs => exact meets_pure ((suffix_of_skip hs).trans hr)
            · next hs =>
              have htail := (suffix_skip _).trans ((suffix_of_skip hs).trans hr)
              exact meets_bind ((ihm _).of_suffix htail) fun r' hr' => meets_pure hr'
            · exact meets_error .malformed
          · exact meets_error .malformed
        · exact meets_error .malformed
      · exact meets_error .malformed

theorem fails_read (text : String) : Fails (Unread text.toList) (read text) := by
  refine meets_bind (((leaves _).1 _).of_suffix (suffix_skip _)) fun r _ => ?_
  dsimp only
  split
  · exact fails_pure _
  · exact meets_error .malformed

end JsonText

namespace TomlText

variable {α β : Type} {cs rest : List Char}

def Reads (r : Reader α) : Prop := ∀ cs, Leaves cs (r cs)

theorem reads_pure (a : α) : Reads (pure a) := fun _ => meets_pure List.suffix_rfl

theorem reads_fail : Reads (α := α) Reader.fail := fun _ => meets_error .malformed

theorem reads_bind {r : Reader α} {f : α → Reader β} (hr : Reads r) (hf : ∀ a, Reads (f a)) :
    Reads (r >>= f) :=
  fun cs => meets_bind (hr cs) fun p hp => (hf p.1 p.2).of_suffix hp

theorem leaves_ite {c : Prop} [Decidable c] {r r' : Reader α} (hr : Leaves cs (r cs))
    (hr' : Leaves cs (r' cs)) : Leaves cs ((if c then r else r') cs) := by
  split
  exacts [hr, hr']

theorem reads_ite {c : Prop} [Decidable c] {r r' : Reader α} (hr : Reads r) (hr' : Reads r') :
    Reads (if c then r else r') :=
  fun cs => leaves_ite (hr cs) (hr' cs)

theorem reads_look {f : List Char → Reader α} (hf : ∀ cs, Leaves cs (f cs cs)) : Reads (get >>= f) := hf

theorem reads_peek {f : List Char → Reader α} (hf : ∀ cs, Reads (f cs)) : Reads (get >>= f) :=
  reads_look fun cs => hf cs cs

theorem leaves_jump {f : PUnit → Reader α} (hs : rest <:+ cs) (hf : Reads (f ⟨⟩)) (start : List Char) :
    Leaves cs ((set rest >>= f) start) :=
  (hf rest).of_suffix hs

theorem reads_modify {f : List Char → List Char} (hf : ∀ cs, f cs <:+ cs) : Reads (modify f) :=
  fun cs => meets_pure (hf cs)

theorem reads_take {f : List Char → Option (α × List Char)}
    (hf : ∀ cs a rest, f cs = some (a, rest) → rest <:+ cs) : Reads (Reader.take f) := by
  refine reads_look fun cs => ?_
  cases h : f cs with
  | none => exact reads_fail cs
  | some p => exact leaves_jump (hf cs p.1 p.2 h) (reads_pure p.1) cs

theorem reads_ofOption (o : Option α) : Reads (Reader.ofOption o) := by
  cases o with
  | none => exact reads_fail
  | some a => exact reads_pure a

theorem reads_accept (text : String) : Reads (Reader.accept text) := by
  refine reads_look fun cs => leaves_ite ?_ (reads_pure false cs)
  exact leaves_jump (List.drop_suffix _ _) (reads_pure true) cs

theorem reads_expect (text : String) : Reads (Reader.expect text) :=
  reads_bind (reads_accept text) fun _ => reads_ite (reads_pure _) reads_fail

theorem reads_skipSpace : Reads skipSpace := reads_modify fun _ => List.dropWhile_suffix _

theorem reads_comment : Reads comment := by
  refine reads_bind (reads_accept "#") fun _ => reads_ite ?_ (reads_pure _)
  refine reads_look fun cs => leaves_ite (meets_error .malformed) ?_
  exact meets_pure (List.dropWhile_suffix _)

theorem suffix_dropGap {inComment : Bool} (h : dropGap inComment cs = some rest) : rest <:+ cs := by
  fun_induction dropGap inComment cs with
  | case1 => cases h; exact List.suffix_rfl
  | case2 tail ih => exact (ih h).trans (List.suffix_cons _ tail)
  | case3 => cases h
  | case4 c tail _ _ ih => exact (ih h).trans (List.suffix_cons c tail)
  | case5 c tail _ ih => exact (ih h).trans (List.suffix_cons c tail)
  | case6 tail _ ih => exact (ih h).trans (List.suffix_cons _ tail)
  | case7 => cases h; exact List.suffix_rfl

theorem reads_skipGap : Reads skipGap := by
  refine reads_look fun cs => ?_
  cases h : dropGap false cs with
  | none => exact reads_fail cs
  | some rest => exact meets_pure (suffix_dropGap h)

theorem suffix_basicText? {multiline : Bool} {skip : Nat} {text : List Char}
    (h : basicText? multiline skip cs = some (text, rest)) : rest <:+ cs := by
  fun_induction basicText? multiline skip cs generalizing text with
  | case1 => cases h
  | case2 skip c tail ih => exact (ih h).trans (List.suffix_cons c tail)
  | case3 c tail => cases h; exact List.suffix_cons c _
  | case4 c tail => cases h; exact (List.drop_suffix _ _).trans (List.suffix_cons c tail)
  | case5 tail _ _ ih =>
    obtain ⟨⟨ds, skip⟩, -, h⟩ := Option.bind_eq_some_iff.mp h
    obtain ⟨⟨text', r⟩, hr, h⟩ := Option.bind_eq_some_iff.mp h
    cases h
    exact (ih skip hr).trans (List.suffix_cons _ tail)
  | case6 => cases h
  | case7 c tail _ _ _ _ ih =>
    obtain ⟨⟨text', r⟩, hr, h⟩ := Option.bind_eq_some_iff.mp h
    cases h
    exact (ih hr).trans (List.suffix_cons c tail)

theorem suffix_literalText? {multiline : Bool} {text : List Char}
    (h : literalText? multiline cs = some (text, rest)) : rest <:+ cs := by
  fun_induction literalText? multiline cs generalizing text with
  | case1 => cases h
  | case2 c tail => cases h; exact List.suffix_cons c _
  | case3 c tail => cases h; exact (List.drop_suffix _ _).trans (List.suffix_cons c tail)
  | case4 => cases h
  | case5 c tail _ _ _ ih =>
    obtain ⟨⟨text', r⟩, hr, h⟩ := Option.bind_eq_some_iff.mp h
    cases h
    exact (ih hr).trans (List.suffix_cons c tail)

theorem reads_basicText (multiline : Bool) : Reads (Reader.take (basicText? multiline 0)) :=
  reads_take fun _ _ _ => suffix_basicText?

theorem reads_literalText (multiline : Bool) : Reads (Reader.take (literalText? multiline)) :=
  reads_take fun _ _ _ => suffix_literalText?

theorem reads_longText (quote : Char) {body : List Char → Option (List Char × List Char)}
    (h : Reads (Reader.take body)) : Reads (longText quote body) := by
  refine reads_bind (reads_bind (reads_accept _) fun _ => reads_pure _) fun _ => ?_
  refine reads_bind h fun text => reads_peek fun cs => ?_
  exact reads_bind (reads_modify fun _ => List.drop_suffix _ _) fun _ => reads_pure _

theorem reads_keyPart : Reads keyPart := by
  refine reads_bind (reads_accept _) fun _ => reads_ite ?_ ?_
  · exact reads_bind (reads_literalText false) fun _ => reads_pure _
  refine reads_bind (reads_accept _) fun _ => reads_ite ?_ ?_
  · exact reads_bind (reads_basicText false) fun _ => reads_pure _
  refine reads_look fun cs => leaves_ite (meets_error .malformed) ?_
  exact leaves_jump (List.dropWhile_suffix _) (reads_pure _) cs

theorem reads_keyParts (bound : Nat) : Reads (keyParts bound) := by
  induction bound with
  | zero => exact reads_fail
  | succ bound ih =>
    refine reads_bind reads_skipSpace fun _ => reads_bind reads_keyPart fun part => ?_
    refine reads_bind reads_skipSpace fun _ => reads_bind (reads_accept _) fun _ => ?_
    exact reads_ite (reads_bind ih fun _ => reads_pure _) (reads_pure _)

theorem reads_key : Reads key := reads_peek fun _ => reads_keyParts _

theorem grouped_spec (digit : Char → Bool) (cs : List Char) : ∃ run, run ++ (grouped digit cs).2 = cs ∧
    (grouped digit cs).1 = run.filter digit ∧ ∀ c ∈ run, digit c = true ∨ c = '_' := by
  fun_induction grouped digit cs with
  | case1 => exact ⟨[], rfl, rfl, fun c hc => absurd hc List.not_mem_nil⟩
  | case2 c tail hc ds rest hg ih =>
    obtain ⟨run, hrun, hds, hmem⟩ := ih
    rw [hg] at hrun hds
    refine ⟨c :: run, congrArg (c :: ·) hrun, ?_, List.forall_mem_cons.mpr ⟨.inl hc, hmem⟩⟩
    rw [List.filter_cons_of_pos hc, ← hds]
  | case3 c tail hc hu ih =>
    obtain ⟨run, hrun, hds, hmem⟩ := ih
    have hc' : c = '_' := by
      simp only [Bool.and_eq_true, decide_eq_true_eq] at hu
      exact hu.1
    refine ⟨c :: run, congrArg (c :: ·) hrun, ?_, List.forall_mem_cons.mpr ⟨.inr hc', hmem⟩⟩
    rw [List.filter_cons_of_neg hc, ← hds]
  | case4 c tail => exact ⟨[], rfl, rfl, fun c hc => absurd hc List.not_mem_nil⟩

theorem suffix_grouped (digit : Char → Bool) (cs : List Char) : (grouped digit cs).2 <:+ cs := by
  obtain ⟨run, hrun, -⟩ := grouped_spec digit cs
  exact ⟨run, hrun⟩

theorem suffix_digits? {digit : Char → Bool} {ds : List Char} (h : digits? digit cs = some (ds, rest)) :
    rest <:+ cs := by
  unfold digits? at h
  split at h
  · have hg := suffix_grouped digit cs
    rwa [Option.some.inj h] at hg
  · cases h

theorem suffix_radixNumber? {v : Value} (h : radixNumber? cs = some (v, rest)) : rest <:+ cs := by
  unfold radixNumber? at h
  split at h
  · next r tail =>
    obtain ⟨base, -, h⟩ := Option.bind_eq_some_iff.mp h
    obtain ⟨⟨ds, rest'⟩, hds, h⟩ := Option.bind_eq_some_iff.mp h
    cases h
    exact (suffix_digits? hds).trans (List.suffix_append ['0', r] tail)
  · cases h

theorem suffix_sign (cs : List Char) : (sign cs).2 <:+ cs := by
  unfold sign
  split
  exacts [List.suffix_cons _ _, List.suffix_cons _ _, List.suffix_rfl]

theorem suffix_exponent? {e : Int} (h : exponent? cs = some (e, rest)) : rest <:+ cs := by
  cases cs with
  | nil => cases h
  | cons c tail =>
    simp only [exponent?] at h
    split at h
    · cases h
    · obtain ⟨⟨ds, rest'⟩, hds, h⟩ := Option.bind_eq_some_iff.mp h
      cases h
      exact (suffix_digits? hds).trans ((suffix_sign tail).trans (List.suffix_cons c tail))

theorem suffix_char? {c : Char} (h : char? c cs = some rest) : rest <:+ cs := by
  cases cs with
  | nil => cases h
  | cons d tail =>
    simp only [char?] at h
    split at h <;> cases h
    exact List.suffix_cons d _

theorem suffix_getD {o : Option (α × List Char)} {a : α}
    (h : ∀ b rest, o = some (b, rest) → rest <:+ cs) : (o.getD (a, cs)).2 <:+ cs := by
  cases o with
  | none => exact List.suffix_rfl
  | some p => exact h p.1 p.2 rfl

theorem wholePart?_spec {whole : List Char} (h : wholePart? cs = some (whole, rest)) :
    rest <:+ cs ∧ (maxDigits < whole.length → LongNumber cs) := by
  unfold wholePart? at h
  split at h
  · cases h
    exact ⟨List.suffix_cons _ _, fun h => absurd h (by decide)⟩
  · refine ⟨suffix_digits? h, fun hlong => ?_⟩
    unfold digits? at h
    split at h
    · obtain ⟨run, hrun, hds, hmem⟩ := grouped_spec isDigit cs
      rw [Option.some.inj h] at hds
      refine ⟨run, List.IsPrefix.isInfix ⟨_, hrun⟩, hmem, ?_⟩
      rwa [List.countP_eq_length_filter, ← hds]
    · cases h

theorem suffix_fraction (cs : List Char) :
    ((char? '.' cs >>= digits? isDigit).getD ([], cs)).2 <:+ cs := by
  refine suffix_getD fun ds rest h => ?_
  obtain ⟨tail, htail, hds⟩ := Option.bind_eq_some_iff.mp h
  exact (suffix_digits? hds).trans (suffix_char? htail)

theorem decimalNumber?_spec {v : Except Fault Value} (h : decimalNumber? cs = some (v, rest)) :
    rest <:+ cs ∧ Fails (Unread cs) v := by
  unfold decimalNumber? at h
  have hsign := suffix_sign cs
  generalize sign cs = signed at h hsign
  obtain ⟨⟨whole, cs₁⟩, hw, h⟩ := Option.bind_eq_some_iff.mp h
  obtain ⟨hrest, hlong⟩ := wholePart?_spec hw
  have hfraction := (suffix_fraction cs₁).trans (hrest.trans hsign)
  dsimp only at h
  generalize Option.getD _ ([], cs₁) = fraction at h hfraction
  split at h
  · next he =>
    cases h
    exact ⟨(suffix_exponent? he).trans hfraction, fails_ok _⟩
  · split at h
    · cases h
      exact ⟨hfraction, fails_ok _⟩
    · split at h <;> cases h
      · next hl => exact ⟨hfraction, .long ((hlong hl).of_suffix hsign)⟩
      · exact ⟨hfraction, fails_ok _⟩

theorem suffix_twoDigits? {low high : Nat} {ds : List Char}
    (h : twoDigits? low high cs = some (ds, rest)) : rest <:+ cs := by
  unfold twoDigits? at h
  split at h
  · next a b tail =>
    split at h <;> cases h
    exact List.suffix_append [a, b] _
  · cases h

theorem suffix_secondPlaces (cs : List Char) : (secondPlaces cs).2 <:+ cs := by
  unfold secondPlaces
  split
  · dsimp only
    split
    · exact List.suffix_rfl
    · exact (List.dropWhile_suffix _).trans (List.suffix_cons _ _)
  · exact List.suffix_rfl

theorem suffix_time? {text : List Char} (h : time? cs = some (text, rest)) : rest <:+ cs := by
  obtain ⟨⟨hour, cs₁⟩, h₁, h⟩ := Option.bind_eq_some_iff.mp h
  obtain ⟨cs₂, h₂, h⟩ := Option.bind_eq_some_iff.mp h
  obtain ⟨⟨minute, cs₃⟩, h₃, h⟩ := Option.bind_eq_some_iff.mp h
  obtain ⟨cs₄, h₄, h⟩ := Option.bind_eq_some_iff.mp h
  obtain ⟨⟨second, cs₅⟩, h₅, h⟩ := Option.bind_eq_some_iff.mp h
  cases h
  exact (suffix_secondPlaces cs₅).trans <| (suffix_twoDigits? h₅).trans <| (suffix_char? h₄).trans <|
    (suffix_twoDigits? h₃).trans <| (suffix_char? h₂).trans (suffix_twoDigits? h₁)

theorem suffix_offset (cs : List Char) : (offset cs).2 <:+ cs := by
  unfold offset
  split
  · exact List.suffix_rfl
  · next sign tail =>
    have htail := List.suffix_cons sign tail
    split
    · exact htail
    · split
      · refine suffix_getD fun text rest hp => ?_
        obtain ⟨⟨hour, cs₁⟩, h₁, hp⟩ := Option.bind_eq_some_iff.mp hp
        obtain ⟨cs₂, h₂, hp⟩ := Option.bind_eq_some_iff.mp hp
        obtain ⟨⟨minute, cs₃⟩, h₃, hp⟩ := Option.bind_eq_some_iff.mp hp
        cases hp
        exact (suffix_twoDigits? h₃).trans <| (suffix_char? h₂).trans <|
          (suffix_twoDigits? h₁).trans htail
      · exact List.suffix_rfl

theorem suffix_date? {valid : Bool} {text : List Char} (h : date? cs = some (valid, text, rest)) :
    rest <:+ cs := by
  obtain ⟨⟨century, cs₁⟩, h₁, h⟩ := Option.bind_eq_some_iff.mp h
  obtain ⟨⟨year, cs₂⟩, h₂, h⟩ := Option.bind_eq_some_iff.mp h
  obtain ⟨cs₃, h₃, h⟩ := Option.bind_eq_some_iff.mp h
  obtain ⟨⟨month, cs₄⟩, h₄, h⟩ := Option.bind_eq_some_iff.mp h
  obtain ⟨cs₅, h₅, h⟩ := Option.bind_eq_some_iff.mp h
  obtain ⟨⟨day, cs₆⟩, h₆, h⟩ := Option.bind_eq_some_iff.mp h
  cases h
  exact (suffix_twoDigits? h₆).trans <| (suffix_char? h₅).trans <| (suffix_twoDigits? h₄).trans <|
    (suffix_char? h₃).trans <| (suffix_twoDigits? h₂).trans (suffix_twoDigits? h₁)

theorem suffix_moment? {valid : Bool} {text : List Char} (h : moment? cs = some (valid, text, rest)) :
    rest <:+ cs := by
  unfold moment? at h
  split at h
  · obtain ⟨⟨time, rest'⟩, ht, h⟩ := Option.map_eq_some_iff.mp h
    cases h
    exact suffix_time? ht
  · next valid' date rest' hd =>
    have hrest' := suffix_date? hd
    dsimp only at h
    split at h
    · cases h
      exact hrest'
    · next time rest'' ht =>
      cases h
      refine (suffix_offset _).trans (List.IsSuffix.trans ?_ hrest')
      split at ht
      · split at ht
        · exact (suffix_time? ht).trans (List.suffix_cons _ _)
        · cases ht
      · cases ht

theorem reads_scalar : Reads scalar := by
  refine reads_look fun cs => ?_
  cases hw : words.find? (·.1.toList.isPrefixOf cs) with
  | some p => exact leaves_jump (List.drop_suffix _ _) (reads_pure _) cs
  | none =>
    cases hm : moment? cs with
    | some p =>
      exact leaves_ite (leaves_jump (suffix_moment? hm) (reads_pure _) cs) (meets_error .malformed)
    | none =>
      cases hr : radixNumber? cs with
      | some p => exact leaves_jump (suffix_radixNumber? hr) (reads_pure _) cs
      | none =>
        cases hd : decimalNumber? cs with
        | some p =>
          obtain ⟨hrest, hv⟩ := decimalNumber?_spec hd
          exact meets_bind hv fun v _ => meets_pure hrest
        | none => exact meets_error .malformed

section

variable {value : Reader Value} (hv : Reads value)

include hv

theorem reads_items (bound : Nat) : Reads (items value bound) := by
  induction bound with
  | zero => exact reads_fail
  | succ bound ih =>
    refine reads_bind reads_skipGap fun _ => reads_bind (reads_accept _) fun _ => ?_
    refine reads_ite (reads_pure _) (reads_bind hv fun v => reads_bind reads_skipGap fun _ => ?_)
    refine reads_bind (reads_accept _) fun _ => reads_ite (reads_pure _) ?_
    exact reads_bind (reads_expect _) fun _ => reads_bind ih fun _ => reads_pure _

theorem reads_pair : Reads (pair value) :=
  reads_bind reads_key fun _ => reads_bind (reads_expect _) fun _ =>
    reads_bind reads_skipSpace fun _ => reads_bind hv fun _ => reads_pure _

theorem reads_members (bound : Nat) (marks : Marks) (t : Table) :
    Reads (members value bound marks t) := by
  induction bound generalizing marks t with
  | zero => exact reads_fail
  | succ bound ih =>
    refine reads_bind (reads_pair hv) fun p => reads_ite (fun _ => meets_error .malformed) ?_
    refine reads_bind (reads_ofOption _) fun t => reads_bind reads_skipSpace fun _ => ?_
    refine reads_bind (reads_accept _) fun _ => reads_ite (reads_pure _) ?_
    exact reads_bind (reads_expect _) fun _ => ih _ _

end

theorem reads_value (depth : Nat) : Reads (value depth) := by
  induction depth with
  | zero => exact reads_fail
  | succ depth ih =>
    refine reads_bind (reads_accept _) fun _ => reads_ite (reads_longText _ (reads_basicText true)) ?_
    refine reads_bind (reads_accept _) fun _ => reads_ite ?_ ?_
    · exact reads_bind (reads_basicText false) fun _ => reads_pure _
    refine reads_bind (reads_accept _) fun _ => reads_ite (reads_longText _ (reads_literalText true)) ?_
    refine reads_bind (reads_accept _) fun _ => reads_ite ?_ ?_
    · exact reads_bind (reads_literalText false) fun _ => reads_pure _
    refine reads_bind (reads_accept _) fun _ => reads_ite ?_ ?_
    · exact reads_peek fun cs => reads_bind (reads_items ih _) fun _ => reads_pure _
    refine reads_bind (reads_accept _) fun _ => reads_ite ?_ reads_scalar
    refine reads_bind reads_skipSpace fun _ => reads_bind (reads_accept _) fun _ => ?_
    refine reads_ite (reads_pure _) (reads_peek fun cs => ?_)
    exact reads_bind (reads_members ih _ _ _) fun _ => reads_pure _

theorem reads_statement (depth : Nat) (d : Document) : Reads (statement depth d) := by
  refine reads_bind (reads_accept _) fun _ => reads_ite ?_ ?_
  · exact reads_bind reads_key fun _ => reads_bind (reads_ofOption _) fun _ =>
      reads_bind (reads_expect _) fun _ => reads_pure _
  refine reads_bind (reads_accept _) fun _ => reads_ite ?_ ?_
  · exact reads_bind reads_key fun _ => reads_bind (reads_ofOption _) fun _ =>
      reads_bind (reads_expect _) fun _ => reads_pure _
  · exact reads_bind (reads_pair (reads_value depth)) fun _ => reads_ofOption _

theorem reads_statements (depth bound : Nat) (d : Document) : Reads (statements depth bound d) := by
  induction bound generalizing d with
  | zero => exact reads_fail
  | succ bound ih =>
    refine reads_bind reads_skipSpace fun _ => reads_peek fun cs => ?_
    have hrest (d : Document) : Reads (do
        skipSpace
        comment
        if (← get).isEmpty then return d
        Reader.expect "\n"
        statements depth bound d) := by
      refine reads_bind reads_skipSpace fun _ => reads_bind reads_comment fun _ => ?_
      exact reads_peek fun cs => reads_ite (reads_pure d) (reads_bind (reads_expect _) fun _ => ih d)
    split
    exacts [reads_bind (reads_pure d) hrest, reads_bind (reads_pure d) hrest,
      reads_bind (reads_pure d) hrest, reads_bind (reads_statement depth d) hrest]

theorem fails_read (text : String) : Fails (Unread text.toList) (read text) :=
  meets_bind (reads_statements _ _ _ _) fun _ _ => fails_pure _

end TomlText

end CallTime

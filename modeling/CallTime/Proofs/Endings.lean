import Mathlib
import CallTime.CommandLine.Run
import CallTime.Proofs.Overflow
import CallTime.Proofs.Readers

/-!
How a run of the `analyze` command ends.

Each step of the command goes on or ends the run, and for either there is a reason in the files and
options. Main statement: a run ends in one of the documented ways, or a file holds something that no
step handles: a text that is not UTF-8, a number with too many digits, a duration without a whole part,
a source that cannot be lowered, paths whose mean duration is too large, or so many ticks, lines or paths
that their number has too many digits. No duration has.
-/

namespace CallTime

namespace Settings

inductive Unloaded (files : Files) (file : Location) : Fault → Prop
  | encoding (h : files.text file = .ok none) : Unloaded files file .undecodable
  | number {text : String} (h : files.text file = .ok (some text)) (hl : LongNumber text.toList) :
    Unloaded files file .wrongValue

theorem fails_readTables (files : Files) (file : Location) :
    Fails (Unloaded files file) (readTables files file) := by
  unfold readTables
  split
  · exact fails_ok _
  · next h => exact meets_error (.encoding h)
  · next text h =>
    have hread := TomlText.fails_read text
    cases hr : TomlText.read text with
    | ok t => exact fails_ok t
    | error e =>
      rw [hr, fails_error_iff] at hread
      cases hread with
      | malformed => exact fails_ok _
      | long hl => exact meets_error (.number h hl)

end Settings

namespace Durations

/-- A number that has no whole part, and what it is refused for. -/
inductive Partless : Value → Fault → Prop
  | nan (mark : Option Nat) : Partless (.float (.nan mark)) .wrongValue
  | infinite (negative : Bool) : Partless (.float (.infinite negative)) .infinite

inductive Unloaded (files : Files) (file : Location) : Fault → Prop
  | number {text : String} (h : files.text file = .ok (some text)) (hl : LongNumber text.toList) :
    Unloaded files file .wrongValue
  | entry {text : String} {name : Text} {entries : List (Text × Value)} {v : Value} {e : Fault}
    (h : files.text file = .ok (some text)) (hr : JsonText.read text = .ok (.table entries))
    (hm : (name, v) ∈ entries) (hv : Partless v e) : Unloaded files file e

theorem fails_toInt {v : Value} (h : isNumeric v = true) : Fails (Partless v) v.toInt := by
  unfold isNumeric at h
  split at h
  · exact fails_ok _
  · next x =>
    cases x with
    | nan mark => exact meets_error (.nan mark)
    | infinite negative => exact meets_error (.infinite negative)
    | finite => exact fails_ok _
  · cases h

theorem whole_empty : ({} : Durations).Whole := fun _ hv => absurd hv List.not_mem_nil

theorem whole_record {d : Durations} (h : d.Whole) (name : Text) {v : Value} (hv : isNumeric v = true)
    (hs : JsonText.Short v) : Meets (Partless v) (d.record name v) Whole := by
  have hshort : Meets (Partless v) v.toInt fun n => isLong n = false :=
    meets_iff.mpr ⟨(meets_iff.mp (fails_toInt hv)).1, fun n hn => hs.toInt hn hv⟩
  refine meets_bind hshort fun n hn => meets_pure fun w hw => ?_
  obtain rfl | hw := OrderedMap.mem_values_insert hw
  exacts [⟨n, rfl, hn⟩, h w hw]

/-- By induction on the entries: what was recorded before an entry is whole. -/
theorem whole_recordAll {d : Durations} (h : d.Whole) {es : List (Text × Value)}
    (hs : ∀ e ∈ es, JsonText.Short e.2) :
    Meets (fun e => ∃ name v, (name, v) ∈ es ∧ Partless v e) (recordAll d es).1 Whole := by
  induction es generalizing d with
  | nil => exact h
  | cons entry es ih =>
    obtain ⟨name, v⟩ := entry
    obtain ⟨hshort, hs⟩ := List.forall_mem_cons.mp hs
    have hlater : ∀ e, (∃ name' v', (name', v') ∈ es ∧ Partless v' e) →
        ∃ name' v', (name', v') ∈ (name, v) :: es ∧ Partless v' e := by
      rintro e ⟨name', v', hm, hv⟩
      exact ⟨name', v', List.mem_cons_of_mem _ hm, hv⟩
    simp only [recordAll]
    split
    · next hv =>
      have hrecord := whole_record h name hv hshort
      split
      · next d' hd => exact (ih (by rwa [hd] at hrecord) hs).widen hlater
      · next e he => exact meets_error ⟨name, v, List.mem_cons_self, by rwa [he] at hrecord⟩
    · exact (ih h hs).widen hlater

theorem meets_entries (files : Files) (file : Location) :
    Meets (Unloaded files file) (entries files file).1 fun es => es = [] ∨
      ∃ text, files.text file = .ok (some text) ∧ JsonText.read text = .ok (.table es) := by
  unfold entries
  split
  · exact meets_ok (.inl rfl)
  · exact meets_ok (.inl rfl)
  · exact meets_ok (.inl rfl)
  · next text ht =>
    have hread := JsonText.fails_read text
    split
    · next hr => exact meets_ok (.inr ⟨text, ht, hr⟩)
    · exact meets_ok (.inl rfl)
    · exact meets_ok (.inl rfl)
    · next e hne hr =>
      rw [hr, fails_error_iff] at hread
      cases hread with
      | malformed => exact absurd rfl hne
      | long hl => exact meets_error (.number ht hl)

theorem whole_load (files : Files) (file : Location) :
    Meets (Unloaded files file) (load files file).1 Whole := by
  have hentries := meets_entries files file
  unfold load
  split
  · next h => rwa [h] at hentries
  · next es log h =>
    rw [h] at hentries
    obtain rfl | ⟨text, ht, hr⟩ := hentries
    · exact whole_empty
    · cases JsonText.short_read hr with
      | table hs =>
        refine (whole_recordAll whole_empty hs).widen fun e he => ?_
        obtain ⟨name, v, hm, hv⟩ := he
        exact .entry ht hr hm hv

end Durations

theorem Languages.forFile_eq_ok {r : Languages} {l : Language} {default : String}
    (hdefault : r.named? default = some l) (honly : ∀ name l', r.byName.get? name = some l' → l' = l)
    {chosen : Option String} (h : ∀ name ∈ chosen, r.named? name = some l) (file : Location) :
    r.forFile file chosen default = .ok l := by
  unfold forFile
  cases chosen with
  | some name => simp only [h name rfl]
  | none =>
    simp only [hdefault]
    split
    · next l' hl =>
      split at hl
      · cases hl
      · obtain ⟨name, -, hname⟩ := Option.bind_eq_some_iff.mp hl
        rw [honly name l' hname]
    · next heq => exact congrArg Except.ok (Option.some.inj heq).symm
    · next heq => cases heq

namespace Language

theorem eq_python_of_get? {name : String} {l : Language} (h : registered.byName.get? name = some l) :
    l = python :=
  List.mem_singleton.mp (OrderedMap.mem_values_of_get? h : l ∈ [python])

theorem names_registered : registered.names = [lower python.name] := List.mergeSort_singleton _

theorem named?_registered {name : String} (h : lower name ∈ registered.names) :
    registered.named? name = some python := by
  rw [names_registered, List.mem_singleton] at h
  rw [Languages.named?, h]
  exact (OrderedMap.get?_insert {} _ _ python).trans (if_pos rfl)

theorem forFile_registered {chosen : Option String}
    (h : ∀ name ∈ chosen, lower name ∈ registered.names) (file : Location) :
    registered.forFile file chosen python.name = .ok python := by
  have hdefault : lower python.name ∈ registered.names := by
    rw [names_registered]
    exact List.mem_singleton_self _
  exact Languages.forFile_eq_ok (named?_registered hdefault) (fun _ _ => eq_python_of_get?)
    (fun name hn => named?_registered (h name hn)) file

end Language

namespace CommandLine

/-- The step gives what `Q` asks for, or it ends the run in a way that `E` allows. -/
def Step.Ends {α : Type} (E : Ending → Prop) (x : Step α) (Q : α → Prop) : Prop :=
  ∀ log, match (x.run log).1 with
    | .ok a => Q a
    | .error ending => E ending

section

variable {α β : Type} {E : Ending → Prop} {Q : α → Prop}

theorem ends_pure {a : α} (h : Q a) : Step.Ends E (pure a) Q := fun _ => h

theorem ends_throw {ending : Ending} (h : E ending) : Step.Ends E (throw ending) Q := fun _ => h

theorem ends_log (entries : List LogEntry) : Step.Ends E (Step.log entries) fun _ => True :=
  fun _ => trivial

theorem ends_bind {x : Step α} {f : α → Step β} {R : β → Prop} (hx : x.Ends E Q)
    (hf : ∀ a, Q a → (f a).Ends E R) : (x >>= f).Ends E R := by
  intro log
  have h := hx log
  have hrun : (x >>= f).run log = (ExceptT.bindCont f (x.run log).1).run (x.run log).2 := rfl
  rw [hrun]
  split at h
  · next a ha =>
    rw [ha]
    exact hf a h _
  · next ending he =>
    rw [he]
    exact h

theorem ends_ofExcept {x : Except Fault α} (h : Meets (fun e => E (.failed e)) x Q) :
    (Step.ofExcept x).Ends E Q := by
  cases x with
  | ok a => exact ends_pure h
  | error e => exact ends_throw h

end

def Options.settingsFile (o : Options) : Location := o.config.getD (Settings.fileIn {})

variable {files : Files} {o : Options}

/-- The settings of a run: the choices among the options go before those of the file. -/
def Configured (files : Files) (o : Options) (settings : Settings) : Prop :=
  ∃ tables, Settings.readTables files o.settingsFile = .ok tables ∧
    settings = .ofTable (Settings.merge o.chosen (Settings.insightTable tables))

def Measured (files : Files) (o : Options) (d : Durations) : Prop :=
  match o.durations with
  | none => d = {}
  | some file => (Durations.load files file).1 = .ok d

def Opened (files : Files) (o : Options) (s : Session) : Prop :=
  ∃ text d, files.text o.source = .ok (some text) ∧ Measured files o d ∧
    Session.ofSource o.source.stem text d = .ok s

abbrev analysis (settings : Settings) (s : Session) : Analysis.Outcome × Session :=
  s.analyze settings .selfCall Analysis.defaultPasses s.module

def reported (o : Options) (settings : Settings) (s : Session) : Except Fault Report :=
  ((analysis settings s).2.report (some o.source.text) Language.python.name o.source.stem).1

/-- The ways to end that are documented, with their exit codes. -/
inductive Documented (files : Files) (o : Options) : Ending → UInt32 → Prop
  /-- The report is on the functions of the source, in their order. -/
  | report {settings : Settings} {s : Session} {r : Report} {output : String}
    (hc : Configured files o settings) (hs : Opened files o s) (hr : reported o settings s = .ok r)
    (hf : r.functions.map (·.function) = s.functions.map (·.qualified))
    (hp : render o.json r = .ok output) : Documented files o (.done output) 0
  | unknownLanguage {name : String} (h : o.language = some name)
    (hn : lower name ∉ Language.registered.names) :
    Documented files o (.refused (.unknownLanguage name)) 2
  | unreadable {why : Unreadable} (h : files o.source = .error why) :
    Documented files o (.refused (.unreadable o.source)) 2
  | malformed {text : String} (h : files.text o.source = .ok (some text))
    (hm : Source.readModule? text.toList = none) :
    Documented files o (.refused (.malformed o.source)) 2
  | exhausted {settings : Settings} {s : Session} {mark limit : Int} (hc : Configured files o settings)
    (hs : Opened files o s) (hr : (analysis settings s).1.result = .error (.exhausted mark limit))
    (hl : settings.maxTicks = .int limit) (hlt : limit < mark) :
    Documented files o (.aborted mark limit) 3

/-- What no step of a run handles. -/
inductive Mishap (files : Files) (o : Options) : Fault → Prop
  | settings {e : Fault} (h : Settings.Unloaded files o.settingsFile e) : Mishap files o e
  | durations {file : Location} {e : Fault} (hf : o.durations = some file)
    (h : Durations.Unloaded files file e) : Mishap files o e
  | encoding (h : files.text o.source = .ok none) : Mishap files o .undecodable
  | source {text : String} {e : Fault} (h : files.text o.source = .ok (some text))
    (hr : Source.Refused text e) (hne : e ≠ .malformed) : Mishap files o e
  | mean {settings : Settings} {s : Session} (hc : Configured files o settings) (hs : Opened files o s)
    (ho : (analysis settings s).2.insights.Overflows) : Mishap files o .quotientTooLarge
  | ticks {settings : Settings} {s : Session} {mark limit : Int} (hc : Configured files o settings)
    (hs : Opened files o s) (hr : (analysis settings s).1.result = .error .wrongValue)
    (hl : settings.maxTicks = .int limit) (hlt : limit < mark) (hm : isLong mark = true) :
    Mishap files o .wrongValue
  | lines {settings : Settings} {s : Session} {r : Report} (hc : Configured files o settings)
    (hs : Opened files o s) (hr : reported o settings s = .ok r) (hj : o.json = false)
    (hn : r.Crowded) : Mishap files o .wrongValue

def Accounted (files : Files) (o : Options) (ending : Ending) : Prop :=
  Documented files o ending (Outcome.exitCode { ending }) ∨
    ∃ e, ending = .failed e ∧ Mishap files o e

theorem Mishap.accounted {e : Fault} (h : Mishap files o e) : Accounted files o (.failed e) :=
  .inr ⟨e, rfl, h⟩

theorem ends_loadDurations :
    (loadDurations files o.durations).Ends (Accounted files o) fun d => Measured files o d ∧ d.Whole := by
  unfold Measured
  cases hd : o.durations with
  | none => exact ends_pure ⟨rfl, Durations.whole_empty⟩
  | some file =>
    refine ends_bind (ends_log _) fun _ _ => ends_ofExcept ?_
    have hload := Durations.whole_load files file
    rw [meets_iff] at hload ⊢
    exact ⟨fun e he => (Mishap.durations hd (hload.1 e he)).accounted,
      fun d hok => ⟨hok, hload.2 d hok⟩⟩

theorem ends_language : (language o).Ends (Accounted files o) fun l => l = Language.python := by
  have hend (h : ∀ name ∈ o.language, lower name ∈ Language.registered.names) :
      (Step.ofExcept (Language.registered.forFile o.source o.language Language.python.name)).Ends
        (Accounted files o) fun l => l = Language.python := by
    rw [Language.forFile_registered h]
    exact ends_pure rfl
  unfold language
  split
  · next name hname =>
    split
    · next hmem => 
      refine hend ?_
      rw [hname]
      rintro _ ⟨⟩
      exact List.contains_iff_mem.mp hmem
    · next hmem =>
      exact ends_throw (.inl (.unknownLanguage hname fun h => hmem (List.contains_iff_mem.mpr h)))
  · next hnone => exact hend fun name hname => absurd hname (hnone name)

theorem ends_sourceText : (sourceText files o.source).Ends (Accounted files o) fun text =>
    files.text o.source = .ok (some text) := by
  unfold sourceText
  split
  · next why h =>
    cases hf : files o.source with
    | error why' => exact ends_throw (.inl (.unreadable hf))
    | ok content =>
      rw [Files.text, hf] at h
      cases h
  · next h => exact ends_throw (Mishap.encoding h).accounted
  · next text h => exact ends_pure h

theorem ends_openSource {d : Durations} (hm : Measured files o d) (hd : d.Whole) :
    (openSource files o d).Ends (Accounted files o) fun s => Opened files o s ∧ s.Fresh := by
  refine ends_bind ends_sourceText fun text ht => ?_
  have hs := Session.fresh_ofSource o.source.stem text hd
  split
  · next he =>
    rw [he] at hs
    cases (hs : Source.Refused text .malformed) with
    | unreadable h => exact ends_throw (.inl (.malformed ht h))
    | unlowered _ hu => cases hu
  · next hne =>
    rw [meets_iff] at hs
    refine ends_ofExcept (meets_iff.mpr ⟨fun e he => ?_, fun s hok => ?_⟩)
    · refine (Mishap.source ht (hs.1 e he) ?_).accounted
      rintro rfl
      exact hne he
    · exact ⟨⟨text, d, ht, hm, hok⟩, hs.2 s hok⟩

theorem eq_of_overrun {limit mark limit' mark' : Int}
    (h : Clock.overrun limit mark = .exhausted mark' limit') : mark' = mark ∧ limit' = limit := by
  unfold Clock.overrun at h
  split at h <;> cases h
  exact ⟨rfl, rfl⟩

theorem ends_analyzeModule {settings : Settings} {s : Session} (hc : Configured files o settings)
    (hs : Opened files o s) (hf : s.Fresh) :
    (analyzeModule settings s).Ends (Accounted files o) fun t =>
      t = (analysis settings s).2 ∧ t.WellFormed ∧ t.insights.Regular := by
  obtain ⟨tables, -, rfl⟩ := id hc
  let chosen := Settings.merge o.chosen (Settings.insightTable tables)
  obtain ⟨hregular, hfails⟩ := hf.analyze chosen
  have hnext := Session.Next.analyze s (.table chosen.entries) Analysis.defaultPasses
    s.module.mem_walk_self
  refine ends_bind (ends_log _) fun _ _ => ?_
  split
  · next mark limit he =>
    obtain ⟨mark', limit', heq, hl, hlt⟩ | ⟨heq, -⟩ := hfails _ he
    · obtain ⟨rfl, rfl⟩ := eq_of_overrun heq.symm
      exact ends_throw (.inl (.exhausted hc hs he hl hlt))
    · cases heq
  · next e hne he =>
    obtain ⟨mark, limit, rfl, hl, hlt⟩ | ⟨rfl, ho⟩ := hfails _ he
    · cases hm : isLong mark with
      | true =>
        rw [Clock.overrun, hm, Bool.true_or, if_pos rfl] at he ⊢
        exact ends_throw (Mishap.ticks hc hs he hl hlt hm).accounted
      | false =>
        have hpos := Settings.pos_of_maxTicks_ofTable hl
        have hlimit := isLong_eq_false hm (m := limit) (by omega)
        exact absurd (Clock.overrun_eq hlimit hm) (hne mark limit)
    · exact ends_throw (Mishap.mean hc hs ho).accounted
  · exact ends_pure ⟨rfl, hnext.wellFormed hf.wellFormed, hregular⟩

theorem fails_render {json : Bool} {r : Report} (h : r.Writable) :
    Fails (fun e => json = false ∧ e = .wrongValue ∧ r.Crowded) (render json r) := by
  cases json with
  | true => exact fails_ok _
  | false => exact fails_bind (h.fails_lines.widen fun e he => ⟨rfl, he⟩) fun _ => fails_pure _

theorem ends_report {settings : Settings} {s : Session} (hc : Configured files o settings)
    (hs : Opened files o s) (hw : (analysis settings s).2.WellFormed)
    (hregular : (analysis settings s).2.insights.Regular) :
    (do Step.ofExcept (render o.json (← Step.ofExcept (reported o settings s)))).Ends
      (Accounted files o) fun output => Accounted files o (.done output) := by
  have hreport := hw.report hregular (some o.source.text) Language.python.name o.source.stem
  rw [meets_iff] at hreport
  refine ends_bind (ends_ofExcept (Q := fun r => reported o settings s = .ok r)
    (meets_iff.mpr ⟨fun e he => ?_, fun r => id⟩)) fun r hr => ends_ofExcept ?_
  · obtain ⟨rfl, ho⟩ := hreport.1 e he
    exact (Mishap.mean hc hs ho).accounted
  · obtain ⟨⟨-, -, -, hfunctions⟩, hwritable⟩ := hreport.2 r hr
    refine meets_iff.mpr ⟨fun e he => ?_, fun output hp => .inl (.report hc hs hr hfunctions hp)⟩
    obtain ⟨hj, rfl, hcrowded⟩ := (meets_iff.mp (fails_render hwritable)).1 e he
    exact (Mishap.lines hc hs hr hj hcrowded).accounted

theorem ends_analyze (files : Files) (o : Options) :
    (analyze files o).Ends (Accounted files o) fun output => Accounted files o (.done output) := by
  have htables := Settings.fails_readTables files o.settingsFile
  refine ends_bind (ends_ofExcept (Q := fun tables =>
    Settings.readTables files o.settingsFile = .ok tables) ?_) fun tables ht => ?_
  · exact meets_iff.mpr ⟨fun e he => (Mishap.settings ((meets_iff.mp htables).1 e he)).accounted,
      fun tables => id⟩
  refine ends_bind ends_loadDurations fun d hd => ends_bind ends_language fun l hl => ?_
  obtain ⟨hmeasured, hwhole⟩ := hd
  subst hl
  have hc : Configured files o _ := ⟨tables, ht, rfl⟩
  refine ends_bind (ends_openSource hmeasured hwhole) fun s hs => ?_
  obtain ⟨hs, hf⟩ := hs
  refine ends_bind (ends_analyzeModule hc hs hf) fun t ht => ?_
  obtain ⟨rfl, hw, hregular⟩ := ht
  exact ends_bind (ends_log _) fun _ _ => ends_report hc hs hw hregular

/-- Whatever the files hold and whichever options are given, a run reports, refuses its input, exhausts
its budget, or meets a mishap. -/
theorem run_documented_or_mishap (files : Files) {args : List String} {o : Options}
    (h : Request.ofArguments? args = some (.analyze o)) :
    Documented files o (run files args).ending (run files args).exitCode ∨
      ∃ e, (run files args).ending = .failed e ∧ (run files args).exitCode = 1 ∧ Mishap files o e := by
  have hrun : Accounted files o (run files args).ending := by
    have hend := ends_analyze files o []
    simp only [run, h]
    generalize (analyze files o).run [] = result at hend ⊢
    obtain ⟨output | ending, log⟩ := result <;> exact hend
  refine hrun.imp id ?_
  rintro ⟨e, he, hm⟩
  exact ⟨e, he, by rw [Outcome.exitCode, he], hm⟩

def garbled : Directory := ⟨[(["svc.py"], some []), (["sightline.toml"], some [0xff])]⟩

def unmeasured : Directory :=
  ⟨[(["svc.py"], some []), (["d.json"], some "\x7b\"svc.work\": NaN\x7d".toUTF8.toList)]⟩

def withDurations : List String := ["analyze", "svc.py", "--durations", "d.json"]

theorem run_unmeasured_accounted : ∃ o, Request.ofArguments? withDurations = some (.analyze o) ∧
    (Documented unmeasured.files o (run unmeasured.files withDurations).ending
        (run unmeasured.files withDurations).exitCode ∨
      ∃ e, (run unmeasured.files withDurations).ending = .failed e ∧
        (run unmeasured.files withDurations).exitCode = 1 ∧ Mishap unmeasured.files o e) := by
  have h : Request.ofArguments? withDurations = some (.analyze
      { source := ⟨"", ["svc.py"]⟩, durations := some ⟨"", ["d.json"]⟩ }) := by
    unfold withDurations
    cbv
  exact ⟨_, h, run_documented_or_mishap unmeasured.files h⟩

/-- Nothing handles settings that are not a text, or a duration without a whole part. -/
theorem run_not_documented :
    (run garbled.files ["analyze", "svc.py"]).ending = .failed .undecodable ∧
      (run unmeasured.files withDurations).ending = .failed .wrongValue ∧
      ∀ files o e code, ¬ Documented files o (.failed e) code := by
  refine ⟨by unfold garbled; cbv, by unfold unmeasured withDurations; cbv, ?_⟩
  rintro files o e code ⟨⟩

end CommandLine

end CallTime

import CallTime.CommandLine.Options
import CallTime.Duration.Load
import CallTime.Language.Registry
import CallTime.Session
import CallTime.Settings.File

/-!
What the command line does: it reads the settings, the durations and the source, analyses the source
and prints the report.
-/

namespace CallTime.CommandLine

inductive Complaint where
  | badArguments
  | unknownLanguage (name : String)
  | unreadable (source : Location)
  | malformed (source : Location)

inductive Ending where
  | done (output : String)
  | refused (complaint : Complaint)
  | aborted (mark limit : Int)
  | failed (fault : Fault)

structure Outcome where
  ending : Ending
  log : List LogEntry := []

/-- A step of the command, with the log so far. -/
abbrev Step := ExceptT Ending (StateM (List LogEntry))

namespace Step

def log (entries : List LogEntry) : Step Unit := modify (· ++ entries)

def ofExcept {α : Type} : Except Fault α → Step α
  | .ok a => return a
  | .error e => throw (.failed e)

end Step

def loadDurations (files : Files) : Option Location → Step Durations
  | none => return {}
  | some file => do
    let (result, entries) := Durations.load files file
    Step.log entries
    Step.ofExcept result

/-- The language of the source; one that was chosen has to be registered. -/
def language (o : Options) : Step Language := do
  if let some name := o.language then
    unless Language.registered.names.contains (lower name) do
      throw (.refused (.unknownLanguage name))
  Step.ofExcept (Language.registered.forFile o.source o.language Language.python.name)

def sourceText (files : Files) (source : Location) : Step String :=
  match files.text source with
  | .error _ => throw (.refused (.unreadable source))
  | .ok none => throw (.failed .undecodable)
  | .ok (some text) => return text

def openSource (files : Files) (o : Options) (durations : Durations) : Step Session := do
  match Session.ofSource o.source.stem (← sourceText files o.source) durations with
  | .error .malformed => throw (.refused (.malformed o.source))
  | result => Step.ofExcept result

def analyzeModule (settings : Settings) (s : Session) : Step Session := do
  let (outcome, s) := s.analyze settings .selfCall Analysis.defaultPasses s.module
  Step.log outcome.log
  match outcome.result with
  | .error (.exhausted mark limit) => throw (.aborted mark limit)
  | .error e => throw (.failed e)
  | .ok _ => return s

def render (json : Bool) (r : Report) : Except Fault String :=
  if json then .ok (r.json ++ "\n")
  else do
    let lines ← r.lines
    let lines := if lines.isEmpty then ["No duration insights."] else lines
    return String.join (lines.map (· ++ "\n"))

def analyze (files : Files) (o : Options) : Step String := do
  let tables ← Step.ofExcept (Settings.readTables files (o.config.getD (Settings.fileIn {})))
  let settings := Settings.ofTable (Settings.merge o.chosen (Settings.insightTable tables))
  let durations ← loadDurations files o.durations
  let l ← language o
  let s ← analyzeModule settings (← openSource files o durations)
  let (report, entries, _) := s.report (some o.source.text) l.name o.source.stem
  Step.log entries
  Step.ofExcept (render o.json (← Step.ofExcept report))

def usage : String :=
  "Usage: sightline [--verbose] analyze [OPTIONS] PATH\n\n" ++
  "Options:\n" ++
  "  --durations PATH  JSON object mapping qualified function names to measured milliseconds.\n" ++
  "  --config PATH\n" ++
  "  --resolved-functions / --no-resolved-functions\n" ++
  "  --max-ticks INTEGER\n" ++
  "  --language TEXT  Adapter to use instead of picking one by file extension.\n" ++
  "  --json\n" ++
  "  --help\n"

def isShown (verbose : Bool) (e : LogEntry) : Bool := verbose || e.level = .warning

def run (files : Files) (args : List String) : Outcome :=
  match Request.ofArguments? args with
  | none => { ending := .refused .badArguments }
  | some .help => { ending := .done usage }
  | some (.analyze o) =>
    let (result, log) := (analyze files o).run []
    let log := log.filter (isShown o.verbose)
    match result with
    | .ok output => { ending := .done output, log }
    | .error ending => { ending, log }

def locations (args : List String) : List Location :=
  match Request.ofArguments? args with
  | some (.analyze o) =>
    o.config.getD (Settings.fileIn {}) :: o.source :: o.durations.toList
  | _ => []

namespace Outcome

def exitCode (o : Outcome) : UInt32 :=
  match o.ending with
  | .done _ => 0
  | .failed _ => 1
  | .refused _ => 2
  | .aborted _ _ => 3

def output (o : Outcome) : String :=
  match o.ending with
  | .done output => output
  | _ => ""

def complaintText : Complaint → String
  | .badArguments => usage
  | .unknownLanguage name =>
    "unknown language " ++ Quoted.text name ++ "; known: "
      ++ ", ".intercalate Language.registered.names
  | .unreadable source => "cannot read " ++ source.text
  | .malformed source => source.text ++ ": invalid syntax"

def complaint? (o : Outcome) : Option String :=
  match o.ending with
  | .done _ => none
  | .refused c => some (complaintText c)
  | .aborted mark limit =>
    (Fault.exhausted mark limit).message?.map fun m => "analysis aborted: " ++ m
  | .failed e => some (e.message?.getD "analysis failed")

def errorLines (o : Outcome) : List String :=
  let texts := o.log.map LogEntry.text ++ o.complaint?.toList
  texts.flatMap fun t => (t.splitOn "\n")

end Outcome

end CallTime.CommandLine

import CallTime.Location
import CallTime.OrderedMap
import CallTime.Value.Convert

/-!
The options of the command line. An option takes its value from the next argument, whatever that
looks like, or after an equals sign. Of an option given twice the last one counts, and two dashes end
the options.
-/

namespace CallTime.CommandLine

inductive Arity where
  | switch
  | valued

inductive Argument where
  | plain (text : String)
  | switch (name : String)
  | valued (name value : String)

def isOption (arg : String) : Bool := arg.startsWith "-" && arg ≠ "-"

def splitOption (arg : String) : String × Option String :=
  let cs := arg.toList
  match cs.dropWhile (· ≠ '=') with
  | _ :: v => (String.ofList (cs.takeWhile (· ≠ '=')), some (String.ofList v))
  | [] => (arg, none)

/-- Sorts the arguments out; `awaiting` is an option that still needs its value. -/
def sort? (arity : String → Option Arity) :
    (awaiting : Option String) → List String → Option (List Argument)
  | none, [] => some []
  | some _, [] => none
  | some name, v :: rest => do return .valued name v :: (← sort? arity none rest)
  | none, arg :: rest =>
    if arg = "--" then some (rest.map .plain)
    else if !isOption arg then do return .plain arg :: (← sort? arity none rest)
    else
      let (name, attached) := splitOption arg
      match arity name, attached with
      | some .switch, none => do return .switch name :: (← sort? arity none rest)
      | some .valued, none => sort? arity (some name) rest
      | some .valued, some v => do return .valued name v :: (← sort? arity none rest)
      | _, _ => none

/-- The options before the name of the command: whether to be verbose, whether help is asked for, and
what follows. -/
def globals? : List String → Option (Bool × Bool × List String)
  | [] => some (false, false, [])
  | arg :: rest =>
    if arg = "--" then some (false, false, rest)
    else if !isOption arg then some (false, false, arg :: rest)
    else if arg = "--help" then do
      let (verbose, _, rest) ← globals? rest
      return (verbose, true, rest)
    else if arg = "--verbose" || (arg.toList.drop 1).all (· = 'v') then do
      let (_, help, rest) ← globals? rest
      return (true, help, rest)
    else none

structure Options where
  verbose : Bool := false
  source : Location
  durations : Option Location := none
  config : Option Location := none
  resolved : Option Bool := none
  maxTicks : Option Int := none
  language : Option String := none
  json : Bool := false

namespace Options

def arity : String → Option Arity
  | "--durations" | "--config" | "--max-ticks" | "--language" => some .valued
  | "--resolved-functions" | "--no-resolved-functions" | "--json" | "--help" => some .switch
  | _ => none

def value? (args : List Argument) (name : String) : Option String :=
  args.foldl (fun found arg => match arg with
    | .valued n v => if n = name then some v else found
    | _ => found) none

def switched (args : List Argument) (name : String) : Bool :=
  args.any fun arg => match arg with
    | .switch n => n = name
    | _ => false

def resolved? (args : List Argument) : Option Bool :=
  args.foldl (fun found arg => match arg with
    | .switch "--resolved-functions" => some true
    | .switch "--no-resolved-functions" => some false
    | _ => found) none

def ticks? (text : String) : Option Int := (readInt? text.toList).filter (0 < ·)

def plain (args : List Argument) : List String :=
  args.filterMap fun arg => match arg with
    | .plain text => some text
    | _ => none

def ofArguments? (verbose : Bool) (args : List Argument) : Option Options := do
  let [source] := plain args | none
  let maxTicks ← match value? args "--max-ticks" with
    | none => some none
    | some text => (ticks? text).map some
  return {
    verbose
    source := .ofText source
    durations := (value? args "--durations").map .ofText
    config := (value? args "--config").map .ofText
    resolved := resolved? args
    maxTicks
    language := value? args "--language"
    json := switched args "--json" }

def chosen (o : Options) : OrderedMap Text Value := ⟨[
  ("analyze_resolved_functions", (o.resolved.map Value.bool).getD .null),
  ("max_ticks", (o.maxTicks.map Value.int).getD .null)]⟩

end Options

inductive Request where
  | help
  | analyze (options : Options)

/-- Reads all arguments; `none` if they are not understood. -/
def Request.ofArguments? (args : List String) : Option Request := do
  let (verbose, wantsHelp, rest) ← globals? args
  if wantsHelp then return .help
  let "analyze" :: rest := rest | none
  let args ← sort? Options.arity none rest
  if Options.switched args "--help" then return .help
  return .analyze (← Options.ofArguments? verbose args)

end CallTime.CommandLine

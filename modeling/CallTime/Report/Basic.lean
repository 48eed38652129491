import CallTime.Format.Json
import CallTime.Report.Field
import CallTime.Value.Print

/-!
The report on an analysed module: its form, its fields and the lines it is printed in.
-/

namespace CallTime

structure DurationEntry where
  type : String
  value : Int
  derived : Bool := false

structure CallEntry where
  /-- The function around the call. -/
  function : Option String := none
  callee : Option String := none
  resolved : Option String := none
  line : Option Int := none
  duration : DurationEntry
  source : Option String := none

/-- The numbers in the line of the call have few enough digits to be written. -/
def CallEntry.printable (c : CallEntry) : Bool :=
  !isLong c.duration.value && c.line.all fun n => !isLong n

structure FunctionEntry where
  function : String
  line : Option Int := none
  pathCount : Int
  pathDurations : List (Option Int) := []
  estimated : Option Int := none

/-- So have those in the line of the function, if there is one. -/
def FunctionEntry.printable (f : FunctionEntry) : Bool :=
  f.estimated.all fun n => !isLong n && !isLong f.pathCount

structure Report where
  path : Option String := none
  language : String
  module : String
  functions : List FunctionEntry := []
  calls : List CallEntry := []

def Value.ofOption {α : Type} (make : α → Value) : Option α → Value
  | some a => make a
  | none => .null

def Value.text (s : String) : Value := .str s

namespace DurationEntry

def toValue (d : DurationEntry) : Value :=
  .table [("type", .str d.type), ("value", .int d.value), ("derived", .bool d.derived)]

def ofValue? (v : Value) : Option DurationEntry := do
  let es ← Field.entries? v
  let type ← Field.required es "type" Field.text?
  let value ← Field.required es "value" Field.integer?
  let derived ← Field.withDefault es "derived" Field.flag? false
  return { type, value, derived }

end DurationEntry

namespace CallEntry

def toValue (c : CallEntry) : Value := .table [
  ("function", .ofOption Value.text c.function), ("callee", .ofOption Value.text c.callee),
  ("resolved", .ofOption Value.text c.resolved), ("line", .ofOption .int c.line),
  ("duration", c.duration.toValue), ("source", .ofOption Value.text c.source)]

def ofValue? (v : Value) : Option CallEntry := do
  let es ← Field.entries? v
  let text := Field.nullable? Field.text?
  let function ← Field.withDefault es "function" text none
  let callee ← Field.withDefault es "callee" text none
  let resolved ← Field.withDefault es "resolved" text none
  let line ← Field.withDefault es "line" (Field.nullable? Field.integer?) none
  let duration ← Field.required es "duration" DurationEntry.ofValue?
  let source ← Field.withDefault es "source" text none
  return { function, callee, resolved, line, duration, source }

end CallEntry

namespace FunctionEntry

def toValue (f : FunctionEntry) : Value := .table [
  ("function", .str f.function), ("line", .ofOption .int f.line), ("path_count", .int f.pathCount),
  ("path_durations", .list (f.pathDurations.map (.ofOption .int))),
  ("estimated_duration", .ofOption .int f.estimated)]

def ofValue? (v : Value) : Option FunctionEntry := do
  let es ← Field.entries? v
  let integer := Field.nullable? Field.integer?
  let function ← Field.required es "function" Field.text?
  let line ← Field.withDefault es "line" integer none
  let pathCount ← Field.required es "path_count" Field.integer?
  let pathDurations ← Field.withDefault es "path_durations" (Field.list? integer) []
  let estimated ← Field.withDefault es "estimated_duration" integer none
  return { function, line, pathCount, pathDurations, estimated }

end FunctionEntry

namespace Report

def toValue (r : Report) : Value := .table [
  ("path", .ofOption Value.text r.path), ("language", .str r.language), ("module", .str r.module),
  ("functions", .list (r.functions.map FunctionEntry.toValue)),
  ("calls", .list (r.calls.map CallEntry.toValue))]

def ofValue? (v : Value) : Option Report := do
  let es ← Field.entries? v
  let path ← Field.withDefault es "path" (Field.nullable? Field.text?) none
  let language ← Field.required es "language" Field.text?
  let module ← Field.required es "module" Field.text?
  let functions ← Field.withDefault es "functions" (Field.list? FunctionEntry.ofValue?) []
  let calls ← Field.withDefault es "calls" (Field.list? CallEntry.ofValue?) []
  return { path, language, module, functions, calls }

/-- The report as an indented JSON text. -/
def json (r : Report) : String := JsonText.text r.toValue

def location (r : Report) (c : CallEntry) : Except Fault String :=
  match c.line with
  | none | some 0 => .ok r.module
  | some n => do
    let file := match r.path with
      | none | some "" => r.module
      | some path => path
    return file ++ ":" ++ (← decimalText n)

def callLine (r : Report) (c : CallEntry) : Except Fault String := do
  let origin := if c.source = some "measured" then "measured" else "estimated"
  return (← r.location c) ++ ": " ++ c.callee.getD "None" ++ " -> "
    ++ (← decimalText c.duration.value) ++ "ms (" ++ origin ++ ") in " ++ c.function.getD "None"

/-- Where a call is, if the line number can be written. -/
def place (r : Report) (c : CallEntry) : String :=
  match c.line with
  | none | some 0 => r.module
  | some n =>
    let file := match r.path with
      | none | some "" => r.module
      | some path => path
    file ++ ":" ++ toString n

theorem location_eq (r : Report) (c : CallEntry) : r.location c =
    if c.line.all fun n => !isLong n then .ok (r.place c) else .error .wrongValue := by
  unfold location place decimalText
  split
  · next h =>
    rw [h]
    rfl
  · next h =>
    rw [h]
    rfl
  · next n _ h =>
    rw [h, Option.all_some]
    cases isLong n <;> rfl

def labelled (r : Report) (c : CallEntry) (origin : String) : String :=
  r.place c ++ ": " ++ c.callee.getD "None" ++ " -> " ++ toString c.duration.value ++ "ms ("
    ++ origin ++ ") in " ++ c.function.getD "None"

theorem callLine_eq (r : Report) (c : CallEntry) : r.callLine c =
    if c.printable then
      .ok (r.labelled c (if c.source = some "measured" then "measured" else "estimated"))
    else .error .wrongValue := by
  rw [callLine, location_eq, decimalText, CallEntry.printable]
  cases c.line.all fun n => !isLong n <;> cases isLong c.duration.value <;> rfl

def functionLine? (f : FunctionEntry) : Except Fault (Option String) :=
  match f.estimated with
  | none => .ok none
  | some n => do
    return some (f.function ++ ": ~" ++ (← decimalText n) ++ "ms over "
      ++ (← decimalText f.pathCount) ++ " path(s)")

theorem functionLine?_eq (f : FunctionEntry) : functionLine? f =
    if f.printable then .ok (f.estimated.map fun n => f.function ++ ": ~" ++ toString n ++ "ms over "
      ++ toString f.pathCount ++ " path(s)")
    else .error .wrongValue := by
  unfold functionLine? FunctionEntry.printable decimalText
  cases f.estimated with
  | none => rfl
  | some n =>
    rw [Option.all_some]
    dsimp only
    cases isLong n <;> cases isLong f.pathCount <;> rfl

def lines (r : Report) : Except Fault (List String) := do
  let calls ← r.calls.mapM r.callLine
  let functions ← r.functions.mapM functionLine?
  return calls ++ functions.filterMap fun line => line

end Report

end CallTime

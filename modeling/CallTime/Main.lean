import CallTime.CommandLine.Run

/-!
The command line program.
-/

namespace CallTime.CommandLine

def readLocation (l : Location) : IO (Except Unreadable (List UInt8)) := do
  try
    let content ← IO.FS.readBinFile l.text
    return .ok content.toList
  catch
    | .noFileOrDirectory .. => return .error .missing
    | _ => return .error .refused

def main (args : List String) : IO UInt32 := do
  let contents ← (locations args).mapM fun l => return (l, ← readLocation l)
  let outcome := run (fun l => (contents.lookup l).getD (.error .missing)) args
  for line in outcome.errorLines do
    IO.eprintln line
  IO.print outcome.output
  return outcome.exitCode

end CallTime.CommandLine

def main (args : List String) : IO UInt32 := CallTime.CommandLine.main args

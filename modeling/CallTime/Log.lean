/-!
Messages about what the analysis does.
-/

namespace CallTime

inductive Level where
  | debug | warning
  deriving DecidableEq

structure LogEntry where
  level : Level
  source : String
  message : String
  deriving DecidableEq

def Level.text : Level → String
  | .debug => "DEBUG"
  | .warning => "WARNING"

def LogEntry.text (e : LogEntry) : String := e.level.text ++ " " ++ e.source ++ ": " ++ e.message

end CallTime

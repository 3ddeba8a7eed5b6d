/-!
# Log messages

Most faults of a source are not fatal: they are reported and interpretation goes
on.  A report has a level, the topic that it belongs to, and a message.
-/

namespace TexTree

/-- How serious a report is. -/
inductive LogLevel where
  | error
  | warning
  | info
  deriving DecidableEq, Repr, Inhabited

/-- The name of the level. -/
def LogLevel.name : LogLevel → String
  | .error => "ERROR"
  | .warning => "WARN"
  | .info => "INFO"

/-- One report. -/
structure LogEntry where
  level : LogLevel
  topic : String
  message : String
  deriving DecidableEq, Repr, Inhabited

namespace LogEntry

/-- A report of something that was mended. -/
def warning (topic message : String) : LogEntry := ⟨.warning, topic, message⟩

/-- A report of something that happened. -/
def info (topic message : String) : LogEntry := ⟨.info, topic, message⟩

end LogEntry

end TexTree

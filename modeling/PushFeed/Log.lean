/-!
# Log lines

What the feed reports while it runs: a level and a text. Operations that report
return their lines in the order they are written.
-/

namespace PushFeed

/-- How much a log line matters. -/
inductive LogLevel where
  | error
  | warn
  | info
  | debug
  | trace
  deriving DecidableEq, Repr

/-- The name of a level. -/
def LogLevel.name : LogLevel → String
  | .error => "ERROR"
  | .warn => "WARN"
  | .info => "INFO"
  | .debug => "DEBUG"
  | .trace => "TRACE"

/-- A line of the log. -/
structure LogLine where
  /-- How much the line matters. -/
  level : LogLevel
  /-- What the line says. -/
  text : String
  deriving DecidableEq, Repr

end PushFeed

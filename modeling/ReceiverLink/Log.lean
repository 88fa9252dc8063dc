/-
  ReceiverLink.Log
  ────────────────────────────────
  **Log lines.**

  What happens inside the library is recorded as values of event types; each
  of them gives the line under which it is shown.  A line has a level, a
  message and named fields, and its text is
  `LEVEL message name=value name=value`.
-/

namespace ReceiverLink

/-- How much an event matters. -/
inductive Level where
  | trace
  | debug
  | info
  | warn
  | error
  deriving Repr, DecidableEq

/-- The name of a level. -/
def Level.name : Level → String
  | .trace => "TRACE"
  | .debug => "DEBUG"
  | .info => "INFO"
  | .warn => "WARN"
  | .error => "ERROR"

/-- One entry of the log. -/
structure LogLine where
  level : Level
  message : String
  fields : List (String × String) := []
  deriving Repr, DecidableEq

/-- The entry as text. -/
def LogLine.text (line : LogLine) : String :=
  line.level.name ++ " " ++ line.message ++
    String.join (line.fields.map fun f => " " ++ f.1 ++ "=" ++ f.2)

end ReceiverLink

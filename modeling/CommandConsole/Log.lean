/-!
# CommandConsole.Log — the operator's log

What the console does behind the scenes is recorded in a log that its user does not see.
-/

namespace CommandConsole

/-- How important a log line is. -/
inductive LogLevel where
  | debug | info | warn
deriving DecidableEq, Repr, Inhabited

/-- A line of the log. -/
structure LogLine where
  level : LogLevel
  text : String
deriving DecidableEq, Repr

namespace LogLine

/-- A line about the console's inner working. -/
def debug (text : String) : LogLine := ⟨.debug, text⟩

/-- A line about ordinary progress. -/
def info (text : String) : LogLine := ⟨.info, text⟩

/-- A line about something that an operator should look at. -/
def warn (text : String) : LogLine := ⟨.warn, text⟩

end LogLine

end CommandConsole

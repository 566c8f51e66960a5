/-!
# CommandConsole.Error — what can go wrong, and how it is worded

A `ConsoleError` names a cause; `ConsoleError.message` is its wording. The four causes for which
`isStartup` holds mean a broken command declaration and stop the console before it runs; every
other one is reported to the user, and the console goes on.
-/

namespace CommandConsole

/-- Why a configuration is refused. -/
inductive ConfigFault where
  /-- The smallest font size is above the largest. -/
  | emptyFontRange (least greatest : Int)
  /-- No alias could ever be expanded. -/
  | noAliasDepth
  /-- The delay ceiling, as written, is not a positive finite number. -/
  | delayCeiling (written : String)
  /-- The clock would never advance. -/
  | noTick
  /-- The configuration file cannot be read. -/
  | malformed (reason : String)
  /-- A fault in a host's own words. -/
  | other (reason : String)
deriving DecidableEq, Repr

/-- The wording of a configuration fault. -/
def ConfigFault.message : ConfigFault → String
  | .emptyFontRange least greatest => s!"font size range {least}..={greatest} is empty"
  | .noAliasDepth => "max_alias_depth must be at least 1"
  | .delayCeiling written => s!"max_delay_secs must be positive, got {written}"
  | .noTick => "tick_millis must be non-zero"
  | .malformed reason => s!"devcon.toml: {reason}"
  | .other reason => reason

/-- Why a file operation fails. -/
inductive FileFault where
  | notFound
  | notDirectory
  | isDirectory
  | alreadyExists
  | nameTooLong
  /-- The path holds a character that no path can hold. -/
  | invalidPath
  /-- The file does not hold valid text. -/
  | notText
  /-- A fault in a host's own words. -/
  | other (reason : String)
deriving DecidableEq, Repr

/-- The wording of a file fault. -/
def FileFault.message : FileFault → String
  | .notFound => "No such file or directory (os error 2)"
  | .notDirectory => "Not a directory (os error 20)"
  | .isDirectory => "Is a directory (os error 21)"
  | .alreadyExists => "File exists (os error 17)"
  | .nameTooLong => "File name too long (os error 36)"
  | .invalidPath => "file name contained an unexpected NUL byte"
  | .notText => "stream did not contain valid UTF-8"
  | .other reason => reason

/-- Everything that can go wrong in a console. -/
inductive ConsoleError where
  /-- A signature has a token that is neither a word nor a placeholder. -/
  | compile (signature token : String)
  /-- A hand-written pattern is not valid. -/
  | customMatcher (display reason : String)
  /-- A signature was declared without a handler. -/
  | unresolvedHandler (command signature : String)
  /-- Two commands have one name. -/
  | duplicateCommand (name : String)
  /-- A line is neither an alias nor a command nor a request for help. -/
  | dispatchRejected
  | unknownAlias (name : String)
  | invalidHook (name : String)
  /-- The name stands for every alias and cannot be one. -/
  | reservedName (name : String)
  /-- Alias expansions nest too deep. -/
  | recursionLimit (name : String) (limit : Nat)
  | invalidArgument (reason : String)
  | config (fault : ConfigFault)
  | io (fault : FileFault)
  | json (reason : String)
deriving DecidableEq, Repr

namespace ConsoleError

/-- The wording of an error. -/
def message : ConsoleError → String
  | compile signature token =>
    s!"failed to parse command signature '{signature}': problematic token '{token}'"
  | customMatcher display reason => s!"invalid custom matcher for '{display}': {reason}"
  | unresolvedHandler command signature =>
    s!"no handler bound for signature '{signature}' of command '{command}'"
  | duplicateCommand name => s!"command '{name}' is declared more than once"
  | dispatchRejected => "Bad command syntax"
  | unknownAlias name => s!"unknown alias '{name}'"
  | invalidHook name => s!"unknown event type '{name}'"
  | reservedName name =>
    s!"cannot register alias '{name}': it is a keyword representing all registered aliases"
  | recursionLimit name limit => s!"alias '{name}' expanded more than {limit} levels deep"
  | invalidArgument reason => s!"invalid argument: {reason}"
  | config fault => s!"config error: {fault.message}"
  | io fault => s!"I/O error: {fault.message}"
  | json reason => s!"JSON error: {reason}"

/-- Whether the error means a broken command declaration. -/
def isStartup : ConsoleError → Bool
  | compile .. | customMatcher .. | unresolvedHandler .. | duplicateCommand .. => true
  | _ => false

/-- Whether the error ends the whole chain of alias expansions it arises in. -/
def isRecursionLimit : ConsoleError → Bool
  | recursionLimit .. => true
  | _ => false

end ConsoleError

/-- How an action on a console ends. -/
abbrev Outcome := Except ConsoleError Unit

end CommandConsole

import CommandConsole.Action
import CommandConsole.Decimal.Nearest

/-!
# CommandConsole.Builtins — the commands every console has

The declarations of the built-in commands, in the order in which they are tried. A host puts its own
behind them.
-/

namespace CommandConsole.Builtins

variable {τ : Type}

/-- The value at an index; a handler that has too few values fails. -/
def value (values : List String) (index : Nat) : Action τ String :=
  match values[index]? with
  | some text => pure text
  | none => throw (.invalidArgument s!"missing argument {index}")

/-- The error for a value that its type cannot hold. -/
def outOfRange (text : String) : ConsoleError :=
  .invalidArgument s!"'{text}' is out of range"

/-- The font size that digits write, if it is not too large to be saved. -/
def fontSize? (text : String) : Option Int :=
  match Decimal.nat? text.toList with
  | some n => if n ≤ 2147483647 then some n else none
  | none => none

/-- A value that is read, or out of range. -/
def parsed {α : Type} (read? : String → Option α) (text : String) : Action τ α :=
  match read? text with
  | some x => pure x
  | none => throw (outOfRange text)

/-- A written signature with its handler. -/
def signature (grammar hint : String) (handler : Handler τ) : SignatureDecl (Handler τ) :=
  { grammar := .written grammar, hint, handler := some handler }

/-- What `help` shows of a command. -/
def summary (c : Command Unit) : String := c.name ++ " - " ++ c.description

def help : CommandDecl (Handler τ) where
  name := "help"
  description := "lists every command"
  signatures := [
    signature "help" "lists every command with its description" fun _ => do
      let v ← Action.view
      Action.info ("\n".intercalate (v.registry.commands.map summary))
      Action.info "Type '<command> ?' or 'help <command>' for its signatures"]

def print : CommandDecl (Handler τ) where
  name := "print"
  description := "prints text to the console"
  signatures := [
    signature "print <text:s>" "prints everything after the 'print' keyword" fun values => do
      Action.info (← value values 0)]

def clear : CommandDecl (Handler τ) where
  name := "clear"
  description := "clears the console"
  signatures := [
    signature "clear" "clears all contents of the console" fun _ => Action.doing .clear]

def showPanel : CommandDecl (Handler τ) where
  name := "open"
  description := "opens the console"
  signatures := [
    signature "open" "opens the console, useful for automation" fun _ => Action.doing .showPanel]

def hidePanel : CommandDecl (Handler τ) where
  name := "close"
  description := "closes the console"
  signatures := [
    signature "close" "closes the console, useful for automation" fun _ => Action.doing .hidePanel]

def aliases : CommandDecl (Handler τ) where
  name := "alias"
  description := "manages command aliases"
  signatures := [
    signature "alias new <alias:s> to <commands:s>" "registers an alias for ';'-separated commands"
      fun values => do
        Action.doing (.registerAlias (← value values 0) (← value values 1)),
    signature "alias print <alias:s>" "prints an alias, or 'all' of them" fun values => do
      Action.doing (.listAliases (← value values 0)),
    signature "alias rem <alias:s>" "removes an alias, or 'all' of them" fun values => do
      Action.doing (.deregisterAlias (← value values 0))]

def events : CommandDecl (Handler τ) where
  name := "event"
  description := "binds commands to lifecycle events"
  signatures := [
    signature "event onstartup <commands:s>" "runs the commands when the console starts"
      fun values => do
        Action.doing (.registerEvent LifecycleHook.onStartup.name (← value values 0)),
    signature "event onshutdown <commands:s>" "runs the commands when the console shuts down"
      fun values => do
        Action.doing (.registerEvent LifecycleHook.onShutdown.name (← value values 0)),
    signature "event rem <hook:s>" "removes the binding of an event" fun values => do
      Action.doing (.removeEvent (← value values 0)),
    signature "event list" "lists every binding" fun _ => Action.doing .listEvents]

def fontSize : CommandDecl (Handler τ) where
  name := "fontsize"
  description := "changes the font size"
  signatures := [
    signature "fontsize reset" "resets the font size to its default" fun _ =>
      Action.doing .resetFontSize,
    signature "fontsize <fs:i>" "sets the font size" fun values => do
      Action.doing (.setFontSize (← parsed fontSize? (← value values 0)))]

/-- The amount is read as seconds of any size, so that large ones are clamped and not refused. -/
def delay [Seconds τ] : CommandDecl (Handler τ) where
  name := "delay"
  description := "pauses running sequences"
  signatures := [
    signature "delay <seconds:i>" "holds back the next sequenced statements for some seconds"
      fun values => do
        Action.doing (.requestDelay (← parsed Seconds.read? (← value values 0)))]

def exec : CommandDecl (Handler τ) where
  name := "exec"
  description := "runs a sequence of commands"
  signatures := [
    signature "exec <commands:s>" "runs ';'-separated commands in order" fun values => do
      Action.call (.runSequence (← value values 0))]

/-- Every built-in command, in the order in which they are tried. -/
def all [Seconds τ] : List (CommandDecl (Handler τ)) :=
  [help, print, clear, showPanel, hidePanel, aliases, events, fontSize, delay, exec]

end CommandConsole.Builtins

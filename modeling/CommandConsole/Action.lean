import CommandConsole.Registry
import CommandConsole.Session

/-!
# CommandConsole.Action — what handlers can do

A handler acts on the console only through its public operations. An `Action` is such a sequence of
operations as data: each step is an operation, whose outcome decides how to go on, or a look at the
console. What operations do is said elsewhere; here stands only which there are.

* `Primitive`: the operations that run no command; `Op` adds those that do.
* `Action`: a sequence of operations that ends with a value or an error.
* `Handler`: the action for the values that a line gives.
-/

namespace CommandConsole

variable {τ α β : Type}

/-- An operation that runs no command. -/
inductive Primitive (τ : Type) where
  | print (e : Emphasis) (text : String)
  | signal (s : Signal)
  | drain
  | requestDelay (amount : τ)
  | registerAlias (name text : String)
  | deregisterAlias (name : String)
  | listAliases (name : String)
  | registerEvent (name command : String)
  | removeEvent (name : String)
  | listEvents
  | setFontSize (size : Int)
  | resetFontSize
  | showPanel
  | hidePanel
  | clear
  | insert (c : Char)
  | backspace
  | historyBack
  | historyForward
  | submitPrompt

/-- An operation on a console. -/
inductive Op (τ : Type) where
  | primitive (p : Primitive τ)
  /-- Runs a line and gives its error back. -/
  | dispatch (line : String)
  /-- Runs a line and tells the user about its error. -/
  | execute (line : String)
  /-- Runs the statements of a text. -/
  | runSequence (text : String)
  /-- Lets time pass and resumes the sequences that are due. -/
  | tick (e : Elapsed)
  /-- Runs the command bound to a hook. -/
  | fire (hook : LifecycleHook)
  /-- Runs the composed line. -/
  | submit

/-- What a handler can see of a console. -/
structure View (τ : Type) where
  registry : Registry Unit
  config : Config τ
  aliases : AliasTable
  hooks : EventHooks
  sequencer : Sequencer τ
  prompt : Prompt
  fontSize : Int
  isOpen : Bool
  output : List Output

/-- A sequence of operations that ends with a value or an error. -/
inductive Action (τ α : Type) where
  | done (value : α)
  | fail (e : ConsoleError)
  /-- An operation; how it ends decides what follows. -/
  | perform (op : Op τ) (next : Outcome → Action τ α)
  /-- A look at the console decides what follows. -/
  | look (next : View τ → Action τ α)

namespace Action

/-- One action after another; an error ends both. -/
def bind : Action τ α → (α → Action τ β) → Action τ β
  | done value, f => f value
  | fail e, _ => fail e
  | perform op next, f => perform op fun o => (next o).bind f
  | look next, f => look fun v => (next v).bind f

/-- An action, and another one in place of its error, if it has one. -/
def recover : Action τ α → (ConsoleError → Action τ α) → Action τ α
  | done value, _ => done value
  | fail e, f => f e
  | perform op next, f => perform op fun o => (next o).recover f
  | look next, f => look fun v => (next v).recover f

instance : Monad (Action τ) where
  pure := done
  bind := bind

instance : MonadExcept ConsoleError (Action τ) where
  throw := fail
  tryCatch := recover

/-- An operation whose error, if it has one, is the action's. -/
def call (op : Op τ) : Action τ Unit :=
  perform op fun
    | .ok () => done ()
    | .error e => fail e

/-- An operation that runs no command. -/
def doing (p : Primitive τ) : Action τ Unit := call (.primitive p)

/-- Prints an ordinary line. -/
def info (text : String) : Action τ Unit := doing (.print .info text)

/-- What the console shows of itself. -/
def view : Action τ (View τ) := look done

end Action

/-- The action of a signature, given the values that a line gives. -/
abbrev Handler (τ : Type) := List String → Action τ Unit

end CommandConsole

import CommandConsole.Action

/-!
# CommandConsole.Console — running lines

A line is an alias, a command, a request for help, or an error. An alias stands for statements that
are run in turn, each a line again. While the delay is positive statements are parked; time resumes
them. A failing statement is reported and the next one runs, except that aliases nested too deep end
the whole run.

Handlers can run lines themselves, so a run may have no end. `perform` therefore takes fuel, the
number of operations that may nest, and has no answer when it does not suffice. `Returns` says that
an operation ends, whatever the fuel.

* `dispatch`, `expandAlias`, `runStatements`, `resume`: the steps, given how to run what is nested.
* `classify`: what a line would be, without running it.
-/

namespace CommandConsole

variable {τ : Type}

/-- What does not change while a console runs. -/
structure Console (τ : Type) where
  registry : Registry (Handler τ)
  config : Config τ

/-- How a line would be treated, for colouring. -/
inductive LineClass where
  | empty
  /-- It has the signature of a command. -/
  | valid
  | aliased
  /-- It asks for help on a command. -/
  | help
  | invalid
deriving DecidableEq, Repr

/-- An operation's outcome and the session after it; none if fuel runs out. -/
abbrev Result (τ α : Type) := Option (α × Session τ)

/-- What an operation that runs no command does. -/
def Primitive.apply [Seconds τ] (c : Config τ) (s : Session τ) : Primitive τ → Outcome × Session τ
  | print e text => (.ok (), s.print e text)
  | signal x => (.ok (), s.emit (.signal x))
  | drain => (.ok (), s.drain.2)
  | requestDelay amount => (.ok (), s.requestDelay amount)
  | registerAlias name text => s.registerAlias name text
  | deregisterAlias name => (.ok (), s.deregisterAlias name)
  | listAliases name => s.listAliases name
  | registerEvent name command => s.registerEvent name command
  | removeEvent name => s.removeEvent name
  | listEvents => (.ok (), s.listEvents)
  | setFontSize size => (.ok (), s.setFontSize c size)
  | resetFontSize => (.ok (), s.setFontSize c c.defaultFontSize)
  | showPanel => (.ok (), s.showPanel)
  | hidePanel => (.ok (), s.hidePanel)
  | clear => (.ok (), s.clear)
  | insert x => (.ok (), { s with prompt := (s.prompt.insert x).2 })
  | backspace => (.ok (), { s with prompt := s.prompt.backspace })
  | historyBack => (.ok (), { s with prompt := s.prompt.back })
  | historyForward => (.ok (), { s with prompt := s.prompt.forward })
  | submitPrompt => (.ok (), { s with prompt := s.prompt.submit.2 })

/-- Runs an action, given what operations do and what can be seen. -/
def Action.run {α : Type} (perform : Op τ → Session τ → Result τ Outcome)
    (see : Session τ → View τ) : Action τ α → Session τ → Result τ (Except ConsoleError α)
  | done value, s => some (.ok value, s)
  | fail e, s => some (.error e, s)
  | .perform op next, s =>
    match perform op s with
    | none => none
    | some (outcome, s) => (next outcome).run perform see s
  | .look next, s => (next (see s)).run perform see s

namespace Console

/-- What a handler can see. -/
def view (c : Console τ) (s : Session τ) : View τ where
  registry := c.registry.map fun _ => ()
  config := c.config
  aliases := s.aliases
  hooks := s.hooks
  sequencer := s.sequencer
  prompt := s.prompt
  fontSize := s.fontSize
  isOpen := s.isOpen
  output := s.output

/-- How a line would be treated. -/
def classify (c : Console τ) (s : Session τ) (line : String) : LineClass :=
  if line = "" then .empty
  else if c.registry.isValid line then .valid
  else if (s.aliases.lookup line).isSome then .aliased
  else if (c.registry.matchHelp line).isSome then .help
  else .invalid

variable [Seconds τ]

/-- Runs statements in turn until sequences have to wait, and parks the rest. -/
def runStatements (run : String → Session τ → Result τ Outcome) :
    List String → Session τ → Result τ Outcome
  | [], s => some (.ok (), s)
  | statement :: statements, s =>
    if s.sequencer.isWaiting then some (.ok (), s.park (statement :: statements))
    else match run statement s with
      | none => none
      | some (.ok (), s) => runStatements run statements s
      | some (.error e, s) =>
        if e.isRecursionLimit then some (.error e, s)
        else runStatements run statements (s.report e)

/-- Runs the statements that an alias stands for, one level deeper. -/
def expandAlias (c : Console τ) (run : String → Session τ → Result τ Outcome) (name : String)
    (statements : List String) (s : Session τ) : Result τ Outcome :=
  let limit := c.config.maxAliasDepth
  if limit ≤ s.depth then some (.error (.recursionLimit name limit), s)
  else
    let line := LogLine.debug
      s!"Expanding alias '{name}' into {statements.length} statements (depth {s.depth})"
    match runStatements run statements { s.record line with depth := s.depth + 1 } with
    | none => none
    | some (outcome, s) => some (outcome, { s with depth := s.depth - 1 })

/-- Runs a line, given what nested operations do. -/
def dispatch (c : Console τ) (perform : Op τ → Session τ → Result τ Outcome) (line : String)
    (s : Session τ) : Result τ Outcome :=
  let line := Text.trim line
  if line = "" then some (.ok (), s)
  else match s.aliases.expand line with
    | some statements =>
      c.expandAlias (fun statement => perform (.dispatch statement)) line statements s
    | none =>
      match c.registry.resolve line with
      | none => some (.error .dispatchRejected, s)
      | some (.help command) => some (.ok (), s.info command.helpText)
      | some (.invoke command binding values) =>
        let shown := binding.signature.display
        (binding.handler values).run perform c.view
          (s.record (.debug s!"Dispatching '{line}' to {command.name} [{shown}]"))

/-- Resumes sequences that are due, oldest first, at most so many. What a sequence leaves behind
goes in front of those that were parked behind it. -/
def resume (run : List String → Session τ → Result τ Outcome) :
    Nat → Session τ → Option (Session τ)
  | 0, s => if s.sequencer.popReady?.isNone then some s else none
  | most + 1, s =>
    match s.sequencer.popReady? with
    | none => some s
    | some (task, sequencer) =>
      let (rest, sequencer) := sequencer.takeParked
      match run task.statements { s with sequencer, depth := task.depth } with
      | none => none
      | some (outcome, t) =>
        let t := t.reportFailure outcome
        resume run most
          { t with depth := s.depth, sequencer := t.sequencer.restoreParked rest }

/-- Runs the command bound to a hook. -/
def fire (run : List String → Session τ → Result τ Outcome) (hook : LifecycleHook)
    (s : Session τ) : Result τ Outcome :=
  match s.hooks.command hook with
  | none => some (.ok (), s)
  | some command =>
    match run (Text.statements command) (s.record (.info s!"Firing {hook.name}: {command}")) with
    | none => none
    | some (outcome, s) => some (.ok (), s.reportFailure outcome)

/-- Runs a line and tells the user about its error. -/
def execute (run : String → Session τ → Result τ Outcome) (line : String) (s : Session τ) :
    Result τ Outcome :=
  match run line s with
  | none => none
  | some (outcome, s) => some (.ok (), s.reportFailure outcome)

/-- Enters the composed line: shows it behind the prompt and runs it, unless it is blank. -/
def submit (c : Console τ) (run : String → Session τ → Result τ Outcome) (s : Session τ) :
    Result τ Outcome :=
  let (line, prompt) := s.prompt.submit
  let s := { s with prompt }
  if Text.isBlankText line then some (.ok (), s)
  else execute run line (s.print .highlight (c.config.prompt ++ line))

/-- What an operation does, where so many operations may nest. -/
def perform (c : Console τ) : Nat → Op τ → Session τ → Result τ Outcome
  | 0, _, _ => none
  | fuel + 1, op, s =>
    let line (text : String) : Session τ → Result τ Outcome := c.perform fuel (.dispatch text)
    match op with
    | .primitive p => some (p.apply c.config s)
    | .dispatch text => c.dispatch (c.perform fuel) text s
    | .execute text => execute line text s
    | .runSequence text => runStatements line (Text.statements text) s
    | .tick e =>
      (resume (runStatements line) fuel { s with sequencer := s.sequencer.advance e }).map
        fun s => (.ok (), s)
    | .fire hook => fire (runStatements line) hook s
    | .submit => c.submit line s

/-- An operation ends with this outcome and leaves this session. -/
def Returns (c : Console τ) (op : Op τ) (s : Session τ) (outcome : Outcome) (t : Session τ) :
    Prop :=
  ∃ fuel, c.perform fuel op s = some (outcome, t)

end Console

end CommandConsole

import CommandConsole.AliasTable
import CommandConsole.Config
import CommandConsole.EventHooks
import CommandConsole.Output
import CommandConsole.Prompt
import CommandConsole.Sequencer
import CommandConsole.Store

/-!
# CommandConsole.Session — what changes while a console runs

A session holds everything that actions change, and the actions on it that run no command. Output,
log and save attempts are kept newest first.

* `start`: the session that a store's saved state begins.
* `persist`: every change of what is remembered between runs ends in it.
-/

namespace CommandConsole

/-- An attempt to save, and how it ended. -/
structure SaveAttempt where
  state : SavedState
  outcome : Outcome

/-- What changes while a console runs. -/
structure Session (τ : Type) where
  aliases : AliasTable
  hooks : EventHooks
  sequencer : Sequencer τ
  prompt : Prompt := {}
  fontSize : Int
  isOpen : Bool := false
  /-- How many alias expansions the statement being run comes from. -/
  depth : Nat := 0
  /-- Output that the host has not taken yet, newest first. -/
  emitted : List Output := []
  store : Store
  /-- Every attempt to save, newest first. -/
  attempts : List SaveAttempt := []
  /-- The operator's log, newest first. -/
  log : List LogLine := []

namespace Session

variable {τ : Type}

/-! ### Output and log -/

/-- The output that the host has not taken yet, oldest first. -/
def output (s : Session τ) : List Output := s.emitted.reverse

/-- Queues an item of output. -/
def emit (s : Session τ) (o : Output) : Session τ := { s with emitted := o :: s.emitted }

/-- Queues a line. -/
def print (s : Session τ) (e : Emphasis) (text : String) : Session τ := s.emit (.line e text)

/-- Queues an ordinary line. -/
def info (s : Session τ) (text : String) : Session τ := s.print .info text

/-- Queues lines in turn, or one line if there are none. -/
def infoAll (s : Session τ) (ifNone : String) : List String → Session τ
  | [] => s.info ifNone
  | line :: lines => (line :: lines).foldl info s

/-- Hands the queued output to the host. -/
def drain (s : Session τ) : List Output × Session τ := (s.output, { s with emitted := [] })

/-- Adds a line to the log. -/
def record (s : Session τ) (line : LogLine) : Session τ := { s with log := line :: s.log }

/-- Adds lines to the log in turn. -/
def recordAll (s : Session τ) (lines : List LogLine) : Session τ := lines.foldl record s

/-- Tells the user about an error. -/
def report (s : Session τ) (e : ConsoleError) : Session τ :=
  (s.record (.debug s!"Dispatch failed: {e.message}")).print .error e.message

/-- Tells the user how an action failed, if it did. -/
def reportFailure (s : Session τ) : Outcome → Session τ
  | .ok () => s
  | .error e => s.report e

/-! ### Saving -/

/-- What would be saved. -/
def snapshot (s : Session τ) : SavedState where
  fontSize := s.fontSize
  aliases := s.aliases.entries
  events := s.hooks.toMap

/-- Saves the session; a failure is a warning and nothing else. -/
def persist (s : Session τ) : Session τ :=
  let (outcome, store, lines) := s.store.save s.snapshot
  let t := { s with store, attempts := ⟨s.snapshot, outcome⟩ :: s.attempts }.recordAll lines
  match outcome with
  | .ok () => t
  | .error e =>
    let text := "Failed to save console state: " ++ e.message
    (t.record (.warn text)).print .warning text

/-! ### Aliases -/

/-- Makes a name stand for a text. -/
def registerAlias (s : Session τ) (name text : String) : Outcome × Session τ :=
  match s.aliases.register name text with
  | .error e => (.error e, s)
  | .ok aliases =>
    (.ok (), { s with aliases }.persist.print .success s!"Registered alias '{Text.trim name}'")

/-- Removes one alias, or all of them. -/
def deregisterAlias (s : Session τ) (name : String) : Session τ :=
  match s.aliases.deregister name with
  | (.all count, aliases) => { s with aliases }.persist.info s!"Removed all aliases ({count})"
  | (.one, aliases) => { s with aliases }.persist.info s!"Removed alias '{Text.trim name}'"
  | (.missing, _) => s

/-- Shows one alias, or all of them. -/
def listAliases (s : Session τ) (name : String) : Outcome × Session τ :=
  match s.aliases.list name with
  | .error e => (.error e, s)
  | .ok entries =>
    (.ok (), s.infoAll "No aliases registered" (entries.map fun e => e.1 ++ " => " ++ e.2))

/-! ### Event hooks -/

/-- Binds a command to the hook that a text names. -/
def registerEvent (s : Session τ) (name command : String) : Outcome × Session τ :=
  match s.hooks.register name command with
  | .error e => (.error e, s)
  | .ok (hook, hooks) =>
    (.ok (), { s with hooks }.persist.print .success s!"Event '{hook.name}' registered")

/-- Clears the binding of the hook that a text names. -/
def removeEvent (s : Session τ) (name : String) : Outcome × Session τ :=
  match LifecycleHook.read name with
  | .error e => (.error e, s)
  | .ok hook =>
    match s.hooks.command hook with
    | none => (.ok (), s)
    | some _ =>
      (.ok (),
        { s with hooks := s.hooks.unbind hook }.persist.info s!"Removed event '{hook.name}'")

/-- Shows every binding. -/
def listEvents (s : Session τ) : Session τ :=
  s.infoAll "No event hooks registered"
    (s.hooks.bindings.map fun b => b.1.name ++ " => " ++ b.2)

/-! ### The panel -/

/-- Shows the panel, unless it is shown. -/
def showPanel (s : Session τ) : Session τ :=
  if s.isOpen then s else { s with isOpen := true }.emit (.signal .opened)

/-- Hides the panel, unless it is hidden. -/
def hidePanel (s : Session τ) : Session τ :=
  if s.isOpen then { s with isOpen := false }.emit (.signal .closed) else s

/-- Removes what the panel shows. -/
def clear (s : Session τ) : Session τ := s.emit (.signal .clear)

variable [Seconds τ]

/-- Sets the font size to the closest one in range. -/
def setFontSize (s : Session τ) (c : Config τ) (size : Int) : Session τ :=
  let t := { s with fontSize := c.clampFontSize size }.persist
  t.info s!"Font size set to {t.fontSize}"

/-! ### Delays -/

/-- Adds to the delay; an amount above the ceiling is a warning. -/
def requestDelay (s : Session τ) (amount : τ) : Session τ :=
  match s.sequencer.requestDelay amount with
  | (.ignored, _) => s
  | (.accepted amount, sequencer) =>
    let seconds := Seconds.plain amount
    let pending := Seconds.hundredths sequencer.remaining
    { s with sequencer }.record
      (.debug s!"Delaying sequences by {seconds}s ({pending}s pending)")
  | (.clamped requested applied, sequencer) =>
    let requested := Seconds.plain requested
    let applied := Seconds.plain applied
    ({ s with sequencer }.record
      (.warn s!"Delay of {requested}s clamped to {applied}s")).print .warning
      s!"Delay of {requested} is too much, clamping it to {applied}"

/-- Parks statements until the delay is over. -/
def park (s : Session τ) (statements : List String) : Session τ :=
  let remaining := Seconds.hundredths s.sequencer.remaining
  { s with sequencer := s.sequencer.park ⟨statements, s.depth⟩ }.record
    (.debug s!"Parking {statements.length} statements ({remaining}s remaining)")

/-! ### The start -/

/-- The session that a saved state begins. -/
def ofSaved (c : Config τ) (store : Store) (state : SavedState) : Session τ :=
  let (aliases, dropped) := AliasTable.ofMap state.aliases
  let (hooks, unknown) := EventHooks.ofMap state.events
  let s : Session τ :=
    { aliases, hooks, sequencer := .start c.maxDelay, fontSize := c.clampFontSize state.fontSize,
      store }
  let s := if dropped then s.record (.warn s!"Dropping persisted alias '{reservedAlias}'") else s
  s.recordAll (unknown.map fun name =>
    .warn s!"Ignoring persisted binding for unknown event '{name}'")

/-- The session that a store's saved state begins, under settings that a console can work with. -/
def start (c : Config τ) (store : Store) : Except ConsoleError (Session τ) := do
  c.check.mapError .config
  let (loaded, lines) := store.load
  let s := ofSaved c store (← loaded)
  return { s with log := s.log ++ lines.reverse }

end Session

end CommandConsole

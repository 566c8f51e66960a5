import CommandConsole.Builtins
import CommandConsole.Config.Toml
import CommandConsole.Console

/-!
# CommandConsole.Host — a console driven by lines

The host reads settings and saved state, shows the panel, runs the startup command, enters each line
of the input, waits until nothing is parked, runs the shutdown command, waits again and hides the
panel. Everything the console shows is written in order, coloured by emphasis.

* `render`: an item of output as the terminal gets it.
* `inputLines`: the lines of an input given as bytes.
* `play`: a whole run over a given input, where time passes only to end a wait.
-/

namespace CommandConsole.Host

/-- Where settings are looked for if no other place is named. -/
def defaultConfigPath : String := "devcon.toml"

/-- More operations than nest in any run. -/
def nesting : Nat := 0x4000000000000000

/-- A text in one of the terminal's colours. -/
def coloured (code text : String) : String := "\x1b[" ++ code ++ "m" ++ text ++ "\x1b[0m"

/-- A line as the terminal gets it. -/
def renderLine (e : Emphasis) (text : String) : String :=
  match e with
  | .info => text
  | .warning => coloured "33" text
  | .error => coloured "31" ("* " ++ text)
  | .success => coloured "32" text
  | .highlight => coloured "36" text

/-- An item of output as the terminal gets it. -/
def render : Output → String
  | .text e text => renderLine e text ++ "\n"
  | .signal .clear => "\x1b[2J\x1b[H"
  | .signal .opened | .signal .closed => ""

/-- Cuts bytes after every line break; the break goes, with a carriage return in front of it. -/
def byteLines : List UInt8 → List (List UInt8)
  | [] => []
  | b :: bs =>
    if b = 10 then [] :: byteLines bs
    else if b = 13 && bs.head? = some 10 then byteLines bs
    else match bs, byteLines bs with
      | [], _ | _, [] => [[b]]
      | _, line :: lines => (b :: line) :: lines

/-- The lines of an input, up to the first that is not valid text. -/
def inputLines (bytes : ByteArray) : List String :=
  ((byteLines bytes.toList).map fun line => String.fromUTF8? ⟨line.toArray⟩).takeWhile (·.isSome)
    |>.filterMap id

/-- The built-in commands, the settings in a file and the saved state they name. -/
def start (tree : FileTree) (configPath : String) :
    Except ConsoleError (Console Float × Session Float) := do
  let (config, lines) := Config.load tree configPath
  let config ← config
  let registry ← Registry.build Builtins.all
  let s ← Session.start config (.file { path := config.stateFile, tree })
  let lines := lines ++
    .info s!"Starting developer console (state in {config.stateFile})" ::
    registry.announcements ++ [.info s!"Registered {registry.size} commands"]
  return ({ registry, config }, { s with log := s.log ++ lines.reverse })

variable {τ : Type} [Seconds τ]

/-- An operation as a step of the host; the session stays if the operation has no end. -/
def act (c : Console τ) (op : Op τ) (s : Session τ) : Session τ :=
  match c.perform nesting op s with
  | some (_, s) => s
  | none => s

/-- Types a line and enters it. -/
def enter (c : Console τ) (s : Session τ) (line : String) : Session τ :=
  act c .submit { s with prompt := (s.prompt.type line.toList).2 }

/-- Shows the panel and runs the startup command. -/
def opening (c : Console τ) (s : Session τ) : Session τ :=
  act c (.fire .onStartup) (act c (.primitive .showPanel) s)

/-- Lets time pass, step by step and at most so often, until nothing is parked. -/
def settle (c : Console τ) (step : Elapsed) : Nat → Session τ → Session τ
  | 0, s => s
  | most + 1, s =>
    if s.sequencer.hasPending then settle c step most (act c (.tick step) s) else s

/-- A step that ends any wait but an absurdly long one. -/
def longStep : Elapsed := ⟨0xffffffffffffffff, 0⟩

/-- A whole run over the lines of an input. -/
def play (c : Console τ) (lines : List String) (s : Session τ) : Session τ :=
  let s := settle c longStep nesting (lines.foldl (enter c) (opening c s))
  let s := settle c longStep nesting (act c (.fire .onShutdown) s)
  act c (.primitive .hidePanel) s

/-- What a session has written, as the terminal gets it. -/
def written (s : Session τ) : String := String.join (s.output.map render)

/-- What a run leaves behind. -/
structure Report where
  exitCode : Nat
  output : String
  tree : FileTree

/-- The files of a session's store, or the given ones. -/
def filesOf (s : Session τ) (tree : FileTree) : FileTree :=
  match s.store with
  | .file f => f.tree
  | .memory _ => tree

/-- A run with the settings at a path and the bytes of an input. -/
def run (tree : FileTree) (arguments : List String) (input : ByteArray) : Report :=
  match start tree (arguments.head?.getD defaultConfigPath) with
  | .error _ => ⟨1, "", tree⟩
  | .ok (c, s) =>
    let s := play c (inputLines input) s
    ⟨0, written s, filesOf s tree⟩

end CommandConsole.Host

import CommandConsole.Host

/-!
# CommandConsole.Main — the program

Reads lines from standard input while time passes, and writes what the console shows. The first
argument names the file with the settings. All decisions are `Host`'s; here the real clock, the real
files and the terminal are connected to it.
-/

open CommandConsole

namespace CommandConsole.Program

/-- What a place in the real file system holds, as far as it can be read. -/
def nodeAt (path : String) : IO (Option FileNode) := do
  try
    return some (.ofBytes (← IO.FS.readBinFile path))
  catch
    | .noFileOrDirectory .. => return none
    | _ => return some .directory

/-- A tree with the directory that relative paths start from, and nothing else. -/
def workingTree : FileTree := { nodes := [(["."], .directory)], current := ["."] }

/-- Adds what lies on the way to a path, and at its end, to a tree. -/
def lookUp (tree : FileTree) (path : String) : IO FileTree := do
  let mut tree := tree
  let mut place := tree.origin path
  let mut name := if FileTree.isAbsolute path then "" else "."
  for c in FileTree.components path do
    name := name ++ "/" ++ c
    if c = ".." then place := place.dropLast
    else if c ≠ "." then
      place := place ++ [c]
      if let some n ← nodeAt name then
        tree := tree.put place n
  return tree

/-- Writes the state file if it has changed. -/
def store (path : String) (before after : FileTree) : IO Unit := do
  match after.read path with
  | .ok content =>
    if (before.read path).toOption ≠ some content then
      let parent := FileTree.parentComponents path
      unless parent.isEmpty do
        IO.FS.createDirAll
          ((if FileTree.isAbsolute path then "/" else "") ++ "/".intercalate parent)
      IO.FS.writeFile path content
  | .error _ => return ()

/-- A line of the log for the operator. -/
def showLog (line : LogLine) : IO Unit :=
  match line.level with
  | .debug => return ()
  | .info => IO.eprintln ("[INFO] " ++ line.text)
  | .warn => IO.eprintln ("[WARN] " ++ line.text)

/-- A running console and what the host last saw of its files. -/
structure Running where
  console : Console Float
  session : Session Float
  files : FileTree

/-- Writes what the console shows, logs and saves. -/
def Running.flush (r : Running) : IO Running := do
  let stdout ← IO.getStdout
  stdout.putStr (Host.written r.session)
  stdout.flush
  r.session.log.reverse.forM showLog
  let files := Host.filesOf r.session r.files
  store r.console.config.stateFile r.files files
  return { r with session := { r.session.drain.2 with log := [] }, files }

/-- The time between two readings of the clock. -/
def between (earlier later : Nat) : Elapsed :=
  ⟨(later - earlier) / 1000000000, (later - earlier) % 1000000000⟩

/-- Lets the time since the last reading of the clock pass. -/
def Running.tick (r : Running) (last : Nat) : IO (Running × Nat) := do
  let now ← IO.monoNanosNow
  let session := Host.act r.console (.tick (between last now)) r.session
  return (← { r with session }.flush, now)

/-- Reads the next line without its end; none at the end of the input. -/
def readLine : IO (Option String) := do
  let line ← (← IO.getStdin).getLine
  if line.isEmpty then return none
  return (Host.inputLines line.toUTF8).head?

/-- Waits and lets time pass until nothing is parked. -/
partial def Running.settle (r : Running) (last : Nat) : IO (Running × Nat) := do
  if r.session.sequencer.hasPending then
    IO.sleep (UInt32.ofNat r.console.config.tickMillis)
    let (r, last) ← r.tick last
    r.settle last
  else return (r, last)

/-- Enters the lines of the input as they come. -/
partial def Running.listen (r : Running) (last : Nat)
    (next : Task (Except IO.Error (Option String))) : IO (Running × Nat) := do
  if ← IO.hasFinished next then
    match next.get with
    | .ok (some line) =>
      let (r, last) ← { r with session := Host.enter r.console r.session line }.tick last
      r.listen last (← IO.asTask readLine .dedicated)
    | _ => return (r, last)
  else
    IO.sleep (UInt32.ofNat (min r.console.config.tickMillis 16))
    let (r, last) ← r.tick last
    r.listen last next

/-- Runs a console from its start to its end. -/
def Running.live (r : Running) : IO Unit := do
  let r ← { r with session := Host.opening r.console r.session }.flush
  let start ← IO.monoNanosNow
  let (r, last) ← r.listen start (← IO.asTask readLine .dedicated)
  let (r, last) ← r.settle last
  let session := Host.act r.console (.fire .onShutdown) r.session
  let (r, _) ← (← { r with session }.flush).settle last
  let session := Host.act r.console (.primitive .hidePanel) r.session
  discard { r with session }.flush

end CommandConsole.Program

def main (arguments : List String) : IO UInt32 := do
  let path := arguments.head?.getD Host.defaultConfigPath
  let files ← Program.lookUp Program.workingTree path
  let files ← match (Config.load files path).1 with
    | .ok c => Program.lookUp files c.stateFile
    | .error _ => pure files
  match Host.start files path with
  | .error e =>
    IO.eprintln ("Error: " ++ e.message)
    return 1
  | .ok (console, session) =>
    ({ console, session, files } : Program.Running).live
    return 0

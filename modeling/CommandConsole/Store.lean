import CommandConsole.FileTree
import CommandConsole.Log
import CommandConsole.SavedState.Json

/-!
# CommandConsole.Store — where a console keeps its saved state

A state is kept in memory or in a file of a file tree. A store with nothing saved yet gives the
initial state. A save that fails leaves the file, or the state in memory, as it was.

* `load`: the saved state, with what the operator's log says about it.
* `save`: keeps a state in place of the one before.
-/

namespace CommandConsole

/-- A state kept in memory. Loading and any attempt to save can be refused, for a host's reasons. -/
structure MemoryStore where
  state : SavedState := .initial
  /-- How often a save was attempted. -/
  attempts : Nat := 0
  /-- How often a save succeeded. -/
  saves : Nat := 0
  /-- Why the attempt with this number is refused, if it is. -/
  refuses : Nat → Option String := fun _ => none
  refusesLoad : Option String := none
  /-- The error that the attempt with this number is refused with, for this reason. -/
  tells : Nat → String → ConsoleError := fun _ reason => .io (.other reason)

namespace MemoryStore

/-- The kept state. -/
def load (m : MemoryStore) : Except ConsoleError SavedState :=
  match m.refusesLoad with
  | some reason => .error (.io (.other reason))
  | none => .ok m.state

/-- Keeps a state. -/
def save (m : MemoryStore) (state : SavedState) : Outcome × MemoryStore :=
  match m.refuses m.attempts with
  | some reason => (.error (m.tells m.attempts reason), { m with attempts := m.attempts + 1 })
  | none => (.ok (), { m with state, attempts := m.attempts + 1, saves := m.saves + 1 })

end MemoryStore

/-- A state kept in a file. -/
structure FileStore where
  path : String
  tree : FileTree

namespace FileStore

/-- The state in the file, or the initial one if there is no file. -/
def load (f : FileStore) : Except ConsoleError SavedState × List LogLine :=
  if !f.tree.exists_ f.path then
    (.ok .initial, [.info s!"No saved state at {f.path}, starting fresh"])
  else match f.tree.read f.path with
    | .error e => (.error (.io e), [])
    | .ok text => match SavedState.ofJson? text with
      | .error reason => (.error (.json reason), [])
      | .ok state =>
        let aliases := state.aliases.size
        let events := state.events.size
        (.ok state,
          [.info s!"Loaded {aliases} aliases and {events} event hooks from {f.path}"])

/-- Writes a state into the file. -/
def save (f : FileStore) (state : SavedState) : Outcome × FileStore × List LogLine :=
  match f.tree.save f.path state.toJson with
  | (.error e, tree) => (.error (.io e), { f with tree }, [])
  | (.ok (), tree) => (.ok (), { f with tree }, [.debug s!"Saved console state to {f.path}"])

end FileStore

/-- Where a console keeps its saved state. -/
inductive Store where
  | memory (m : MemoryStore)
  | file (f : FileStore)

namespace Store

/-- The saved state, with what the operator's log says about it. -/
def load : Store → Except ConsoleError SavedState × List LogLine
  | memory m => (m.load, [])
  | file f => f.load

/-- Keeps a state, with what the operator's log says about it. -/
def save (s : Store) (state : SavedState) : Outcome × Store × List LogLine :=
  match s with
  | memory m =>
    let (outcome, m) := m.save state
    (outcome, memory m, [])
  | file f =>
    let (outcome, f, lines) := f.save state
    (outcome, file f, lines)

end Store

end CommandConsole

import CommandConsole.Error
import CommandConsole.TextMap
import CommandConsole.Text.Blank

/-!
# CommandConsole.EventHooks — commands bound to the console's life

A command can be bound to the start and to the end of the console's life. Hook names are read
without regard to ASCII case or to blanks around them; bound commands are trimmed.

* `LifecycleHook.read`: the hook that a name means.
* `bind`, `unbind`, `command`: the binding of one hook.
* `ofMap`, `toMap`: the saved form.
-/

namespace CommandConsole

/-- The points of a console's life to which a command can be bound. -/
inductive LifecycleHook where
  | onStartup | onShutdown
deriving DecidableEq, Repr

namespace LifecycleHook

/-- Every hook, in order. -/
def all : List LifecycleHook := [onStartup, onShutdown]

/-- The name of a hook. -/
def name : LifecycleHook → String
  | onStartup => "OnStartup"
  | onShutdown => "OnShutdown"

/-- The hook that a text names. -/
def read (text : String) : Except ConsoleError LifecycleHook :=
  let text := Text.trim text
  match all.find? fun hook => hook.name.toList.map Char.toLower == text.toList.map Char.toLower with
  | some hook => .ok hook
  | none => .error (.invalidHook text)

end LifecycleHook

/-- The command bound to each hook. -/
structure EventHooks where
  onStartup : Option String := none
  onShutdown : Option String := none
deriving DecidableEq, Repr

namespace EventHooks

/-- No command is bound. -/
def empty : EventHooks := {}

/-- The command bound to a hook. -/
def command (hooks : EventHooks) : LifecycleHook → Option String
  | .onStartup => hooks.onStartup
  | .onShutdown => hooks.onShutdown

/-- Sets or clears the binding of a hook. -/
def set (hooks : EventHooks) (hook : LifecycleHook) (command : Option String) : EventHooks :=
  match hook with
  | .onStartup => { hooks with onStartup := command }
  | .onShutdown => { hooks with onShutdown := command }

/-- Binds a command to a hook, over the one bound before. -/
def bind (hooks : EventHooks) (hook : LifecycleHook) (command : String) : EventHooks :=
  hooks.set hook (some (Text.trim command))

/-- Clears the binding of a hook. -/
def unbind (hooks : EventHooks) (hook : LifecycleHook) : EventHooks :=
  hooks.set hook none

/-- Binds a command to the hook that a text names. -/
def register (hooks : EventHooks) (name command : String) :
    Except ConsoleError (LifecycleHook × EventHooks) :=
  (LifecycleHook.read name).map fun hook => (hook, hooks.bind hook command)

/-- Every binding, in the order of the hooks. -/
def bindings (hooks : EventHooks) : List (LifecycleHook × String) :=
  LifecycleHook.all.filterMap fun hook => (hooks.command hook).map (hook, ·)

/-- Whether no command is bound. -/
def isEmpty (hooks : EventHooks) : Bool :=
  hooks.onStartup.isNone && hooks.onShutdown.isNone

/-- Binds one saved entry; the name is given back if it names no hook. -/
def restore (hooks : EventHooks) (entry : String × String) : EventHooks × List String :=
  match hooks.register entry.1 entry.2 with
  | .ok (_, hooks) => (hooks, [])
  | .error _ => (hooks, [entry.1])

/-- The bindings of saved entries, in turn, and the names among them that name no hook. -/
def ofEntries (hooks : EventHooks) : List (String × String) → EventHooks × List String
  | [] => (hooks, [])
  | entry :: entries =>
    let (hooks, unknown) := hooks.restore entry
    let (hooks, others) := hooks.ofEntries entries
    (hooks, unknown ++ others)

/-- The bindings of a saved map, and the names in it that name no hook. -/
def ofMap (saved : TextMap) : EventHooks × List String :=
  empty.ofEntries saved.entries

/-- The saved form: commands under the names of their hooks. -/
def toMap (hooks : EventHooks) : TextMap :=
  TextMap.ofList (hooks.bindings.map fun (hook, command) => (hook.name, command))

end EventHooks

end CommandConsole

import CommandConsole.Config
import CommandConsole.FileTree
import CommandConsole.Log
import CommandConsole.Seconds.Binary
import CommandConsole.Toml.Document

/-!
# CommandConsole.Config.Toml — settings from a file

Settings are written in TOML, each under its name; what is not written is as in the standard
settings, and what is not known is left out of account.

* `ofToml`: the settings that a text writes, if a console can work with them.
* `load`: the settings in a file, or the standard ones if there is no file.
-/

namespace CommandConsole.Config

open Toml (Entries Node)

/-- The value under a key as read, or the standard one if the key is missing. -/
def field {α : Type} (es : Entries) (key : String) (read? : Node → Option α) (standard : α) :
    Except ConfigFault α :=
  match Toml.find? es key with
  | none => .ok standard
  | some n => match read? n with
    | some x => .ok x
    | none => .error (.malformed s!"invalid value for {key}")

/-- A text. -/
def text? : Node → Option String
  | .string s => some s
  | _ => none

/-- A font size, which has 32 bits. -/
def fontSize? : Node → Option Int
  | .integer n => if -2147483648 ≤ n && n ≤ 2147483647 then some n else none
  | _ => none

/-- A number that is not negative. -/
def natural? : Node → Option Nat
  | .integer n => if 0 ≤ n then some n.toNat else none
  | _ => none

/-- An amount of seconds; an integer is one too. -/
def seconds? : Node → Option Float
  | .float x => some x
  | .integer n => some (Decimal.nearest (n < 0) n.natAbs 0)
  | _ => none

/-- The settings that the entries of a document write. -/
def ofEntries (es : Entries) : Except ConfigFault (Config Float) := do
  let s : Config Float := .standard
  return {
    stateFile := ← field es "state_file" text? s.stateFile
    prompt := ← field es "prompt" text? s.prompt
    defaultFontSize := ← field es "default_font_size" fontSize? s.defaultFontSize
    minFontSize := ← field es "min_font_size" fontSize? s.minFontSize
    maxFontSize := ← field es "max_font_size" fontSize? s.maxFontSize
    maxDelay := ← field es "max_delay_secs" seconds? s.maxDelay
    maxAliasDepth := ← field es "max_alias_depth" natural? s.maxAliasDepth
    tickMillis := ← field es "tick_millis" natural? s.tickMillis }

/-- The settings that a text writes, if a console can work with them. -/
def ofToml (text : String) : Except ConfigFault (Config Float) :=
  match Toml.parse? text with
  | none => .error (.malformed "the text is not TOML")
  | some es => do
    let c ← ofEntries es
    c.check
    return c

/-- The settings in a file, with what the operator's log says about them. -/
def load (t : FileTree) (path : String) : Except ConsoleError (Config Float) × List LogLine :=
  if !t.exists_ path then (.ok .standard, [.info s!"No config at {path}, using defaults"])
  else match t.read path with
    | .error e => (.error (.io e), [])
    | .ok text => ((ofToml text).mapError .config, [])

end CommandConsole.Config

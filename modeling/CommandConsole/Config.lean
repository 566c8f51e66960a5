import CommandConsole.Error
import CommandConsole.Seconds

/-!
# CommandConsole.Config — the settings of a console

* `check` refuses settings that a console cannot work with.
* `clampFontSize?` brings a font size into the range of the settings; it has no answer for an empty
  range. `clampFontSize` is the same for settings whose range is not empty.
-/

namespace CommandConsole

/-- The settings of a console and its host. -/
structure Config (τ : Type) where
  stateFile : String
  /-- Shown in front of an entered line. -/
  prompt : String
  defaultFontSize : Int
  minFontSize : Int
  maxFontSize : Int
  /-- The most that one request can add to the delay. -/
  maxDelay : τ
  /-- How many alias expansions may nest. -/
  maxAliasDepth : Nat
  /-- The host's clock interval, in milliseconds. -/
  tickMillis : Nat

namespace Config

variable {τ : Type} [Seconds τ]

/-- The settings that hold where nothing else is set. -/
def standard : Config τ where
  stateFile := "devconsole.json"
  prompt := "> "
  defaultFontSize := 8
  minFontSize := 1
  maxFontSize := 50
  maxDelay := Seconds.ofNat 59
  maxAliasDepth := 16
  tickMillis := 16

/-- Refuses settings that a console cannot work with; the first fault counts. -/
def check (c : Config τ) : Except ConfigFault Unit :=
  if c.maxFontSize < c.minFontSize then .error (.emptyFontRange c.minFontSize c.maxFontSize)
  else if c.maxAliasDepth = 0 then .error .noAliasDepth
  else if !Seconds.isCeiling c.maxDelay then .error (.delayCeiling (Seconds.plain c.maxDelay))
  else if c.tickMillis = 0 then .error .noTick
  else .ok ()

/-- The closest font size in the range of the settings. -/
def clampFontSize (c : Config τ) (size : Int) : Int :=
  if size < c.minFontSize then c.minFontSize
  else if c.maxFontSize < size then c.maxFontSize
  else size

/-- The closest font size in the range of the settings; none if the range is empty. -/
def clampFontSize? (c : Config τ) (size : Int) : Option Int :=
  if c.maxFontSize < c.minFontSize then none else some (c.clampFontSize size)

end Config

end CommandConsole

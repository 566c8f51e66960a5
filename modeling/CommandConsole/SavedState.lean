import CommandConsole.TextMap

/-!
# CommandConsole.SavedState — what a console remembers between runs
-/

namespace CommandConsole

/-- The font size when nothing has been saved yet. -/
def initialFontSize : Int := 8

/-- What a console remembers between runs. -/
structure SavedState where
  fontSize : Int := initialFontSize
  /-- The text of each alias. -/
  aliases : TextMap := .empty
  /-- The command of each event, by the event's name. -/
  events : TextMap := .empty
deriving DecidableEq

namespace SavedState

/-- The state when nothing has been saved yet. -/
def initial : SavedState := {}

end SavedState

end CommandConsole

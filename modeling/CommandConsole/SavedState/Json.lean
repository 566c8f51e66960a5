import CommandConsole.Json.Value
import CommandConsole.SavedState

/-!
# CommandConsole.SavedState.Json — the saved form of a state

A state is saved as an object with the members `fontSize`, `aliasMap` and `eventMap`, one entry of
a map on each line. Reading is more generous: members may be missing, and then have the value of a
state with nothing saved; unknown members are left out of account; an array holds the three values
in this order, of which the last may be missing.
-/

namespace CommandConsole.SavedState

open Json (Value)

/-- An entry of a map on a line of its own. -/
def entryChars (entry : String × String) : List Char :=
  "\n    ".toList ++ Json.quote entry.1 ++ [':', ' '] ++ Json.quote entry.2

/-- The entries of a map with commas between them. -/
def entriesChars : List (String × String) → List Char
  | [] => []
  | [entry] => entryChars entry
  | entry :: entries => entryChars entry ++ ',' :: entriesChars entries

/-- A map as the value of a member. -/
def mapChars (m : TextMap) : List Char :=
  if m.isEmpty then ['{', '}'] else '{' :: entriesChars m.entries ++ "\n  \x7d".toList

/-- The saved form of a state. -/
def toChars (s : SavedState) : List Char :=
  "\x7b\n  \"fontSize\": ".toList ++ (toString s.fontSize).toList ++
    ",\n  \"aliasMap\": ".toList ++ mapChars s.aliases ++
    ",\n  \"eventMap\": ".toList ++ mapChars s.events ++ ['\n', '}']

/-- The saved form of a state, as text. -/
def toJson (s : SavedState) : String := String.ofList s.toChars

/-- The least and the greatest font size that can be saved. -/
def isFontSize (n : Int) : Bool := -2147483648 ≤ n && n ≤ 2147483647

/-- The font size that a value holds. -/
def fontSize? : Value → Except String Int
  | .integer n => if isFontSize n then .ok n else .error "font size out of range"
  | _ => .error "the font size is not an integer"

/-- The entry that a member of an object is. -/
def entry? : Option String × Value → Except String (String × String)
  | (some key, .string (some text)) => .ok (key, text)
  | _ => .error "an entry of a map is not a text"

/-- The map that a value holds; of two entries with one key the later counts. -/
def map? : Value → Except String TextMap
  | .object members => (members.mapM entry?).map TextMap.ofList
  | _ => .error "a map is not an object"

/-- The values of the members, as far as they have been met. -/
structure Members where
  fontSize : Option Int := none
  aliases : Option TextMap := none
  events : Option TextMap := none

/-- Sets a member that has not been met before. -/
def once {α : Type} (met : Option α) (value : Except String α) : Except String (Option α) :=
  match met with
  | none => value.map some
  | some _ => .error "a member is given twice"

/-- Reads one member. -/
def Members.add (m : Members) : Option String × Value → Except String Members
  | (none, _) => .error "a key is not a text"
  | (some "fontSize", value) =>
    (once m.fontSize (fontSize? value)).map fun v => { m with fontSize := v }
  | (some "aliasMap", value) => (once m.aliases (map? value)).map fun v => { m with aliases := v }
  | (some "eventMap", value) => (once m.events (map? value)).map fun v => { m with events := v }
  | (some _, _) => .ok m

/-- The state with the given members. -/
def ofMembers (m : Members) : SavedState where
  fontSize := m.fontSize.getD initialFontSize
  aliases := m.aliases.getD .empty
  events := m.events.getD .empty

/-- The state that a value holds. -/
def ofValue? : Value → Except String SavedState
  | .object members => (members.foldlM Members.add {}).map ofMembers
  | .array [] => .ok initial
  | .array [size] => do return { fontSize := ← fontSize? size }
  | .array [size, aliases] => do return { fontSize := ← fontSize? size, aliases := ← map? aliases }
  | .array [size, aliases, events] => do
    return { fontSize := ← fontSize? size, aliases := ← map? aliases, events := ← map? events }
  | .array _ => .error "too many values"
  | _ => .error "a state is neither an object nor an array"

/-- The state that a text holds. -/
def ofJson? (text : String) : Except String SavedState :=
  match Json.parse? text with
  | none => .error "the text is not JSON"
  | some value => ofValue? value

end CommandConsole.SavedState

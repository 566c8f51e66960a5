import CommandConsole.Json.Lexeme

/-!
# CommandConsole.Json.Value — JSON values

`parse?` reads a text that holds one JSON value and nothing else. The containers that are still
open are kept in a list, the innermost first, so values may nest to any depth.
-/

namespace CommandConsole.Json

/-- A JSON value. Numbers that are not integers are not told apart, and a string is given by the
text it holds, if it holds one. -/
inductive Value where
  | null
  | bool (value : Bool)
  | integer (value : Int)
  | number
  | string (held : Option String)
  | array (items : List Value)
  | object (members : List (Option String × Value))
deriving Repr, Inhabited

/-- A container that is still open, with what it holds so far, newest first. -/
inductive Frame where
  | array (items : List Value)
  | object (members : List (Option String × Value)) (key : Option String)

/-- What the reader expects next. -/
inductive Expected where
  | value
  /-- The first item of an array, or its end. -/
  | itemOrEnd
  /-- The first key of an object, or its end. -/
  | keyOrEnd (members : List (Option String × Value))
  /-- A key after a comma. -/
  | key (members : List (Option String × Value))
  | colon (members : List (Option String × Value)) (key : Option String)
  /-- A comma or the end of the container around this value. -/
  | separator (value : Value)

/-- Where the reader is: what it expects next, and the containers still open. -/
structure Reader where
  expected : Expected
  frames : List Frame

/-- Starts to read a value from its first lexeme. -/
def startValue? (frames : List Frame) : Lexeme → Option Reader
  | .openBracket => some ⟨.itemOrEnd, .array [] :: frames⟩
  | .openBrace => some ⟨.keyOrEnd [], frames⟩
  | .null => some ⟨.separator .null, frames⟩
  | .bool b => some ⟨.separator (.bool b), frames⟩
  | .integer n => some ⟨.separator (.integer n), frames⟩
  | .number => some ⟨.separator .number, frames⟩
  | .string s => some ⟨.separator (.string s), frames⟩
  | _ => none

/-- Reads the next lexeme. -/
def Reader.step? (r : Reader) (lexeme : Lexeme) : Option Reader :=
  match r.expected, lexeme, r.frames with
  | .itemOrEnd, .closeBracket, .array items :: frames =>
    some ⟨.separator (.array items.reverse), frames⟩
  | .value, lexeme, frames | .itemOrEnd, lexeme, frames => startValue? frames lexeme
  | .keyOrEnd members, .closeBrace, frames =>
    some ⟨.separator (.object members.reverse), frames⟩
  | .key members, .string key, frames | .keyOrEnd members, .string key, frames =>
    some ⟨.colon members key, frames⟩
  | .colon members key, .colon, frames => some ⟨.value, .object members key :: frames⟩
  | .separator value, .comma, .array items :: frames =>
    some ⟨.value, .array (value :: items) :: frames⟩
  | .separator value, .closeBracket, .array items :: frames =>
    some ⟨.separator (.array (value :: items).reverse), frames⟩
  | .separator value, .comma, .object members key :: frames =>
    some ⟨.key ((key, value) :: members), frames⟩
  | .separator value, .closeBrace, .object members key :: frames =>
    some ⟨.separator (.object ((key, value) :: members).reverse), frames⟩
  | _, _, _ => none

/-- The value that was read, if it is complete. -/
def Reader.finish? : Reader → Option Value
  | ⟨.separator value, []⟩ => some value
  | _ => none

/-- The value of a list of lexemes. -/
def ofLexemes? (lexemes : List Lexeme) : Option Value := do
  (← lexemes.foldlM Reader.step? ⟨.value, []⟩).finish?

/-- The value that a text holds. -/
def parse? (s : String) : Option Value := do
  ofLexemes? (← lexemes? s)

end CommandConsole.Json

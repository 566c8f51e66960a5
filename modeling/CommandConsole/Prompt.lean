import CommandConsole.History
import CommandConsole.Text.Blank

/-!
# CommandConsole.Prompt — composing a line

The prompt holds the line being composed and the history of entered lines. Only the characters of
`allowedCharacters` can be typed.
-/

namespace CommandConsole

/-- The characters that can be typed. -/
def allowedCharacters : List Char :=
  ("ABCDEFGHIJKLMNOPQRSTUVWXYZabcdefghijklmnopqrstuvwxyz1234567890" ++
    "-+*/_=<>!@#$%^&*()\x7b\x7d[]\"',.?;:|\\/ ").toList

/-- The line being composed, with the history of entered lines. -/
structure Prompt where
  line : String := ""
  history : History := {}
deriving DecidableEq, Repr, Inhabited

namespace Prompt

/-- A prompt with nothing composed and nothing remembered. -/
def empty : Prompt := {}

/-- Types a character; `false` if it is not allowed, and then nothing changes. -/
def insert (p : Prompt) (c : Char) : Bool × Prompt :=
  if allowedCharacters.contains c then
    (true, { line := p.line.push c, history := p.history.edit })
  else (false, p)

/-- Removes the last character, if there is one. -/
def backspace (p : Prompt) : Prompt :=
  if p.line.isEmpty then p
  else { line := String.ofList p.line.toList.dropLast, history := p.history.edit }

/-- Puts the next older entered line in place of the composed one, if there is one. -/
def back (p : Prompt) : Prompt :=
  match p.history.back with
  | (some line, history) => { line, history }
  | (none, history) => { p with history }

/-- Puts the next newer entered line in place of the composed one, or empties it. -/
def forward (p : Prompt) : Prompt :=
  match p.history.forward with
  | (line, history) => { line := line.getD "", history }

/-- Enters the composed line and remembers it unless it is blank. -/
def submit (p : Prompt) : String × Prompt :=
  if Text.isBlankText p.line then (p.line, { p with line := "" })
  else (p.line, { line := "", history := p.history.commit p.line })

/-- Types characters one by one; says of each whether it was allowed. -/
def type (p : Prompt) : List Char → List Bool × Prompt
  | [] => ([], p)
  | c :: cs =>
    let (taken, q) := p.insert c
    let (others, q) := q.type cs
    (taken :: others, q)

end Prompt

end CommandConsole

import CommandConsole.Text.Blank

/-!
# CommandConsole.Output — what a console shows to its host

The console queues lines of text, each with an emphasis, and signals. `Output.line` is the only way
text enters the queue: it is trimmed and its continuation lines are indented by two spaces.
-/

namespace CommandConsole

/-- How a line is to stand out; the host decides what that looks like. -/
inductive Emphasis where
  | info | warning | error | success | highlight
deriving DecidableEq, Repr, Inhabited

/-- A message to the host that carries no text. -/
inductive Signal where
  /-- Remove what is shown. -/
  | clear
  /-- Show the console. -/
  | opened
  /-- Hide the console. -/
  | closed
deriving DecidableEq, Repr, Inhabited

/-- One item of the output queue. -/
inductive Output where
  | text (emphasis : Emphasis) (content : String)
  | signal (signal : Signal)
deriving DecidableEq, Repr

/-- Every line break is followed by two spaces. -/
def indentContinuation : List Char → List Char
  | [] => []
  | c :: cs =>
    if c = '\n' then '\n' :: ' ' :: ' ' :: indentContinuation cs
    else c :: indentContinuation cs

/-- A line of output: trimmed, continuation lines indented. -/
def Output.line (emphasis : Emphasis) (content : String) : Output :=
  .text emphasis (String.ofList (indentContinuation (Text.trimChars content.toList)))

end CommandConsole

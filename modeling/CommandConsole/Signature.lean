import CommandConsole.Error
import CommandConsole.Pattern.Size
import CommandConsole.Template
import CommandConsole.Text.Blank

/-!
# CommandConsole.Signature — the lines that a command accepts

A signature is written as words and placeholders with blanks between them. A word is made of ASCII
letters, digits, dashes and underscores; a placeholder `<name:c>` has a name and one of the letters
`i`, `f`, `s`, `b` for its kind. A line has the signature if it consists of the words and of values
for the placeholders, with one space between each two.

* `compile`: the signature that a text writes, or the first token at fault.
* `custom`: a signature with a hand-written pattern, its text put between signs for the start and the
  end of a line.
* `captures?`: the values of the placeholders in a line.
-/

namespace CommandConsole

/-- What values a placeholder takes. -/
inductive PlaceholderKind where
  | int | float | text | yesNo
deriving DecidableEq, Repr

namespace PlaceholderKind

/-- The kind that a letter stands for. -/
def ofCode? : Char → Option PlaceholderKind
  | 'i' => some int
  | 'f' => some float
  | 's' => some text
  | 'b' => some yesNo
  | _ => none

/-- The written pattern of the values, as a capture group. -/
def patternText : PlaceholderKind → String
  | int => "([0-9]+)"
  | float => "([0-9]+[.]*[0-9]*)"
  | text => "(.+)"
  | yesNo => "([yn])"

/-- The steps that read a value. -/
def steps : PlaceholderKind → Template
  | int => Template.oneOrMore .asciiDigit
  | float => Template.oneOrMore .asciiDigit ++ [.many (.only '.'), .many .asciiDigit]
  | text => Template.oneOrMore .notLineBreak
  | yesNo => [.one (.ofList ['y', 'n'])]

/-- How the values are called in help. -/
def hint : PlaceholderKind → String
  | int => "int"
  | float => "float"
  | text => "string"
  | yesNo => "y/n"

end PlaceholderKind

/-- A placeholder. -/
structure Placeholder where
  name : String
  kind : PlaceholderKind
deriving DecidableEq, Repr

/-- A part of a signature. -/
inductive SignatureToken where
  | word (text : String)
  | value (p : Placeholder)
deriving DecidableEq, Repr

/-- Whether a character can be part of a word. -/
def isWordPart (c : Char) : Bool := c.isAlphanum || c == '_' || c == '-'

/-- Whether a character can be part of a placeholder's name. -/
def isNamePart (c : Char) : Bool := c ≠ ':' && c ≠ '<' && c ≠ '>'

namespace SignatureToken

/-- Reads what stands between the brackets of a placeholder. -/
def placeholder? (inner : List Char) : Option Placeholder :=
  let name := inner.takeWhile isNamePart
  match inner.dropWhile isNamePart with
  | [':', code] =>
    if name.isEmpty then none
    else (PlaceholderKind.ofCode? code).map (⟨String.ofList name, ·⟩)
  | _ => none

/-- The token that a text without blanks writes. -/
def read? (text : String) : Option SignatureToken :=
  match text.toList with
  | [] => none
  | c :: cs =>
    if (c :: cs).all isWordPart then some (.word text)
    else if c = '<' && cs.getLast? = some '>' then (placeholder? cs.dropLast).map .value
    else none

/-- A token as help shows it. -/
def display : SignatureToken → String
  | word text => text
  | value p => "<" ++ p.name ++ "|" ++ p.kind.hint ++ ">"

/-- A token as part of a written pattern. -/
def patternText : SignatureToken → String
  | word text => String.ofList (text.toList.flatMap fun c => if c = '-' then ['\\', '-'] else [c])
  | value p => p.kind.patternText

/-- The placeholder of a token, if it is one. -/
def placeholder : SignatureToken → Option Placeholder
  | word _ => none
  | value p => some p

/-- The steps that read a token; a value is cut out of the line. -/
def steps : SignatureToken → Template
  | word text => Template.exactly text.toList
  | value p => .cut :: p.kind.steps ++ [.cut]

end SignatureToken

/-- Which lines have a signature, and what the values in them are. -/
inductive LineRule where
  /-- The lines of a template; every other text of one is a value. -/
  | written (steps : Template)
  /-- The lines that a pattern matches; its groups capture the values. -/
  | custom (pattern : Pattern)
deriving DecidableEq

namespace LineRule

/-- Every other text, the first one left out. -/
def everyOther : List (List Char) → List String
  | _ :: value :: texts => String.ofList value :: everyOther texts
  | _ => []

/-- The values in a line, if the rule holds for it; a group without part in the match gives none. -/
def captures? (line : String) : LineRule → Option (List String)
  | written steps => (steps.splitLine? line.toList).map everyOther
  | custom pattern => pattern.captures? line

end LineRule

/-- A compiled signature. -/
structure Signature where
  /-- The text it was made from. -/
  raw : String
  /-- How help shows it. -/
  display : String
  /-- The rule for its lines as it is written. -/
  matcher : String
  rule : LineRule
  placeholders : List Placeholder
deriving DecidableEq

namespace Signature

/-- Reads tokens in turn; the first that cannot be read is given back. -/
def readTokens : List String → Except String (List SignatureToken)
  | [] => .ok []
  | text :: texts =>
    match SignatureToken.read? text with
    | none => .error text
    | some t => (readTokens texts).map (t :: ·)

/-- The template of lines with these tokens, a space between each two. -/
def lineTemplate (tokens : List SignatureToken) : Template :=
  [Template.Step.one (.only ' ')].intercalate (tokens.map (·.steps))

/-- The signature with these tokens. -/
def ofTokens (raw : String) (tokens : List SignatureToken) : Signature where
  raw
  display := " ".intercalate (tokens.map (·.display))
  matcher := "^" ++ " ".intercalate (tokens.map (·.patternText)) ++ "$"
  rule := .written (lineTemplate tokens)
  placeholders := tokens.filterMap (·.placeholder)

/-- The signature that a text writes. -/
def compile (raw : String) : Except ConsoleError Signature :=
  match readTokens (Text.words raw) with
  | .error token => .error (.compile raw token)
  | .ok [] => .error (.compile raw "")
  | .ok tokens => .ok (ofTokens raw tokens)

/-- The signature of a hand-written pattern, pasted between the ends of the line. -/
def custom (pattern display : String) : Except ConsoleError Signature :=
  let matcher := "^(?:" ++ pattern ++ ")$"
  match Pattern.read matcher.toList with
  | .error fault => .error (.customMatcher display fault.message)
  | .ok p => .ok { raw := pattern, display, matcher, rule := .custom p, placeholders := [] }

/-- How many values a line gives. -/
def arity (s : Signature) : Nat :=
  match s.rule with
  | .written _ => s.placeholders.length
  | .custom pattern => pattern.arity

/-- The values in a line that has the signature. -/
def captures? (s : Signature) (line : String) : Option (List String) := s.rule.captures? line

end Signature

end CommandConsole

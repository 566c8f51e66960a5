import CommandConsole.Decimal.Nearest
import CommandConsole.Pattern.CharClass
import CommandConsole.Text.Letters

/-!
# CommandConsole.Pattern.Token — the tokens of written patterns

* `Token`: what a written pattern is cut into.
* `Count.step`: reads one character of a counted repetition.
* `GroupHeader.step`: reads one character of what stands behind a parenthesis and a question mark.
-/

namespace CommandConsole.Pattern

/-- What can be switched on and off in a pattern. -/
inductive Flag where
  | ignoreCase
  /-- The signs for the start and the end stand for those of lines. -/
  | multiLine
  /-- The dot stands for line breaks too. -/
  | dotAll
  /-- A question mark behind a repetition makes it greedy, and others are lazy. -/
  | swapGreed
  | unicode
  /-- Carriage returns end lines. -/
  | crlf
  /-- Blanks and comments count for nothing. -/
  | verbose
deriving DecidableEq, Repr

/-- The flag of a letter. -/
def Flag.ofLetter? : Char → Option Flag
  | 'i' => some ignoreCase
  | 'm' => some multiLine
  | 's' => some dotAll
  | 'U' => some swapGreed
  | 'u' => some unicode
  | 'R' => some crlf
  | 'x' => some verbose
  | _ => none

/-- Changes to the flags, each to its new value. -/
abbrev FlagChange := List (Flag × Bool)

/-- How a group starts. -/
inductive GroupStart where
  | capturing (name : Option String)
  | plain (change : FlagChange)
deriving DecidableEq, Repr

/-- A token of a written pattern. -/
inductive Token where
  | atom (a : Atom)
  | dot
  /-- A class in brackets. -/
  | bracket (c : ClassPart)
  | start (g : GroupStart)
  | close
  | bar
  /-- Changes the flags for the rest of the group. -/
  | flags (change : FlagChange)
  /-- Repeats what stands in front of it, and with `marked` a question mark stands behind it. -/
  | rounds (least : Nat) (most : Option Nat) (marked : Bool)
deriving DecidableEq, Repr

/-! ### Counts -/

/-- A count of rounds in braces, as far as it is read. -/
structure Count where
  /-- The number in front of the comma. -/
  least : Option Nat := none
  /-- The digits of the number that is being read, the last one first. -/
  digits : List Char := []
  /-- Whether the last character was a blank. -/
  blank : Bool := false
deriving DecidableEq, Repr

namespace Count

/-- The number that is written by digits, the last one first. -/
def number (digits : List Char) : Except PatternFault Nat :=
  let n := Decimal.ofDigits digits.reverse
  if digits.isEmpty then .error .emptyCount
  else if 0x100000000 ≤ n then .error .countTooLarge
  else .ok n

/-- The least and the greatest number of rounds, behind the closing brace. -/
def close (n : Count) : Except PatternFault (Nat × Option Nat) :=
  match n.least with
  | none => (number n.digits).map fun least => (least, some least)
  | some least =>
    if n.digits.isEmpty ∧ ¬ n.blank then .ok (least, none)
    else do
      let most ← number n.digits
      if least ≤ most then return (least, some most) else throw .countOutOfOrder

/-- Reads a character of a count, which goes on or is complete then. Blanks may stand around
numbers, but not in front of the brace behind a comma. -/
def step (n : Count) (c : Char) : Except PatternFault (Count ⊕ Nat × Option Nat) :=
  if c = '}' then n.close.map .inr
  else if c = ',' ∧ n.least.isNone then do
    return .inl { least := some (← number n.digits) }
  else if Text.isBlank c then .ok (.inl { n with blank := true })
  else if Decimal.isDigit c ∧ ¬ (n.blank ∧ ¬ n.digits.isEmpty) then
    .ok (.inl { n with digits := c :: n.digits, blank := false })
  else .error (if n.digits.isEmpty then .emptyCount else .unclosedCount)

end Count

/-! ### Starts of groups -/

/-- Whether a name of a group may go on with a character, or start with it. -/
def isNamePart (first : Bool) (c : Char) : Bool :=
  c == '_' || Text.letters.contains c ||
    !first && (c == '.' || c == '[' || c == ']' || Text.numbers.contains c)

/-- Where the lexer is behind a parenthesis and a question mark. -/
inductive GroupHeader where
  | asked
  /-- Behind the letter or the bracket in front of a name. -/
  | letter | angle
  /-- In a name, its last character first. -/
  | name (read : List Char)
  /-- In flags, the last one first; behind a dash if they are switched off, and right behind it if
  the dash is dangling. -/
  | flags (change : FlagChange) (off dangling : Bool)
deriving DecidableEq, Repr

namespace GroupHeader

/-- Reads a character of a name. -/
def nameStep (read : List Char) (c : Char) : Except PatternFault (GroupHeader ⊕ Token) :=
  if c = '>' ∧ read ≠ [] then
    .ok (.inr (.start (.capturing (some (String.ofList read.reverse)))))
  else if isNamePart read.isEmpty c then .ok (.inl (name (c :: read)))
  else .error .unknownNamePart

/-- Reads a character of flags. -/
def flagStep (change : FlagChange) (off dangling : Bool) (c : Char) :
    Except PatternFault (GroupHeader ⊕ Token) :=
  if c = ':' ∨ c = ')' then
    if dangling then .error .danglingNegation
    else if c = ':' then .ok (.inr (.start (.plain change)))
    else if change = [] then .error .nothingToRepeat
    else .ok (.inr (.flags change))
  else if c = '-' then
    if off then .error .repeatedNegation else .ok (.inl (flags change true true))
  else
    match Flag.ofLetter? c with
    | none => .error .unknownFlag
    | some f =>
      if change.any (·.1 = f) then .error .duplicateFlag
      else .ok (.inl (flags ((f, !off) :: change) off false))

/-- Reads a character, with which the start of a group goes on or is complete. -/
def step : GroupHeader → Char → Except PatternFault (GroupHeader ⊕ Token)
  | asked, c =>
    if c = '=' ∨ c = '!' then .error .lookAround
    else if c = 'P' then .ok (.inl letter)
    else if c = '<' then .ok (.inl angle)
    else flagStep [] false false c
  | letter, c => if c = '<' then .ok (.inl (name [])) else .error .unknownFlag
  | angle, c => if c = '=' ∨ c = '!' then .error .lookAround else nameStep [] c
  | name read, c => nameStep read c
  | flags change off dangling, c => flagStep change off dangling c

end GroupHeader

end CommandConsole.Pattern

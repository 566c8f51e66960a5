import CommandConsole.Pattern
import CommandConsole.Pattern.Property

/-!
# CommandConsole.Pattern.Escape — what stands behind a backslash

A backslash takes its special meaning from a sign, names a character by its code point, and names
sets of characters and conditions on places. References to groups are refused.

* `Escape.step`: reads one character of an escape.
-/

namespace CommandConsole.Pattern

/-- A condition on a place as it is written. -/
inductive Place where
  /-- The start or the end of a line or of the text; which one, the flags tell. -/
  | lineStart | lineEnd
  | textStart | textEnd
  | word (place : WordPlace)
deriving DecidableEq, Repr

/-- The kinds of characters with a sign of their own. -/
inductive CharKind where
  | digit | blank | word
deriving DecidableEq, Repr

/-- What a character or an escape in a written pattern stands for. -/
inductive Atom where
  /-- A character; `byte` if it is written by two digits, as single bytes are. -/
  | char (c : Char) (byte : Bool := false)
  | kind (negated : Bool) (k : CharKind)
  | property (negated : Bool) (s : CharSet)
  | place (p : Place)
deriving DecidableEq, Repr

/-- Where the lexer is in an escape. -/
inductive Escape where
  /-- Behind the backslash. -/
  | start
  /-- In the digits of a code point, the last one first; so many make it up. -/
  | digits (count : Nat) (read : List Char)
  /-- In the digits of a code point in braces, the last one first. -/
  | braced (read : List Char)
  /-- Behind the sign for a property. -/
  | property (negated : Bool)
  /-- In the name of a property in braces, its last character first. -/
  | propertyName (negated : Bool) (read : List Char)
deriving DecidableEq, Repr

namespace Escape

/-- The value of a hexadecimal digit. -/
def digitValue? (c : Char) : Option Nat :=
  if '0' ≤ c ∧ c ≤ '9' then some (c.toNat - '0'.toNat)
  else if 'a' ≤ c ∧ c ≤ 'f' then some (c.toNat - 'a'.toNat + 10)
  else if 'A' ≤ c ∧ c ≤ 'F' then some (c.toNat - 'A'.toNat + 10)
  else none

/-- The character with the code point that digits write, the last one first. -/
def character (byte : Bool) (digits : List Char) : Except PatternFault Atom :=
  let code := digits.foldr (fun c n => 16 * n + (digitValue? c).getD 0) 0
  if code.isValidChar then .ok (.char (Char.ofNat code) byte) else .error .noCharacter

/-- The characters with the property that a text asks for. -/
def properties (negated : Bool) (text : List Char) : Except PatternFault Atom :=
  (propertySet text).map fun (s, others) => .property (negated ^^ others) s

/-- The escapes of one character. -/
def simple : Char → Except PatternFault Atom
  | 'd' => .ok (.kind false .digit)
  | 'D' => .ok (.kind true .digit)
  | 's' => .ok (.kind false .blank)
  | 'S' => .ok (.kind true .blank)
  | 'w' => .ok (.kind false .word)
  | 'W' => .ok (.kind true .word)
  | 'b' => .ok (.place (.word .boundary))
  | 'B' => .ok (.place (.word .noBoundary))
  | '<' => .ok (.place (.word .start))
  | '>' => .ok (.place (.word .stop))
  | 'A' => .ok (.place .textStart)
  | 'z' => .ok (.place .textEnd)
  | 'n' => .ok (.char '\n')
  | 't' => .ok (.char '\t')
  | 'r' => .ok (.char '\r')
  | 'f' => .ok (.char '\x0c')
  | 'v' => .ok (.char '\x0b')
  | 'a' => .ok (.char '\x07')
  | c =>
    if c.isDigit then .error .backreference
    else if c.toNat < 128 && !c.isAlpha then .ok (.char c)
    else .error .unknownEscape

/-- Reads a character of an escape, which goes on or is complete then. -/
def step : Escape → Char → Except PatternFault (Escape ⊕ Atom)
  | start, 'x' => .ok (.inl (digits 2 []))
  | start, 'u' => .ok (.inl (digits 4 []))
  | start, 'U' => .ok (.inl (digits 8 []))
  | start, 'p' => .ok (.inl (property false))
  | start, 'P' => .ok (.inl (property true))
  | start, c => (simple c).map .inr
  | digits _ [], '{' => .ok (.inl (braced []))
  | digits count read, c =>
    if (digitValue? c).isNone then .error .unknownDigit
    else if read.length + 1 < count then .ok (.inl (digits count (c :: read)))
    else (character (count == 2) (c :: read)).map .inr
  | braced read, '}' =>
    if read.isEmpty then .error .noDigits else (character false read).map .inr
  | braced read, c =>
    if (digitValue? c).isNone then .error .unknownDigit else .ok (.inl (braced (c :: read)))
  | property negated, '{' => .ok (.inl (propertyName negated []))
  | property _, '\\' => .error .unknownProperty
  | property negated, c => (properties negated [c]).map .inr
  | propertyName negated read, '}' => (properties negated read.reverse).map .inr
  | propertyName negated read, c => .ok (.inl (propertyName negated (c :: read)))

/-- Whether blanks and comments are passed over here where they count for nothing. -/
def spaced (e : Escape) : Bool := e != start

end Escape

end CommandConsole.Pattern

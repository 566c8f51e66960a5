import CommandConsole.Pattern.Token

/-!
# CommandConsole.Pattern.Lexer — cutting written patterns into tokens

`tokens` cuts a written pattern into tokens, one character after the other. What cannot be read is
refused with a `PatternFault`; that includes look-around and references to groups.

Whether blanks and comments count is a flag, which holds to the end of the group it is set in. So
the lexer knows the groups that are open.
-/

namespace CommandConsole.Pattern

/-- Where the lexer is in a token. -/
inductive Mode where
  /-- Where a token may start. -/
  | between
  /-- Behind a repetition, where a question mark may stand. Behind a count, what counts for nothing
  may stand in front of it. -/
  | repeated (least : Nat) (most : Option Nat) (counted : Bool)
  /-- In a count of rounds. -/
  | count (n : Count)
  /-- Behind a parenthesis. -/
  | opened
  /-- Behind a parenthesis and a question mark. -/
  | header (h : GroupHeader)
  /-- Behind a backslash. -/
  | escape (e : Escape)
  /-- Behind the sign for a boundary of a word. -/
  | boundary
  /-- Behind this sign and a brace: a count may follow, or the name of a place. -/
  | boundaryBrace
  /-- In the name of a place at a word, its last character first. -/
  | boundaryName (read : List Char)
  /-- In a class. -/
  | bracket (r : ClassReader)

namespace Mode

/-- The tokens that are complete here unless more belongs to them. -/
def pending : Mode → List Token
  | repeated least most _ => [.rounds least most false]
  | opened => [.start (.capturing none)]
  | boundary | boundaryBrace => [.atom (.place (.word .boundary))]
  | _ => []

/-- Reads a character where a token may start. -/
def start : Char → Mode × List Token
  | '\\' => (escape .start, [])
  | '[' => (bracket {}, [])
  | '(' => (opened, [])
  | ')' => (between, [.close])
  | '|' => (between, [.bar])
  | '.' => (between, [.dot])
  | '^' => (between, [.atom (.place .lineStart)])
  | '$' => (between, [.atom (.place .lineEnd)])
  | '*' => (repeated 0 none false, [])
  | '+' => (repeated 1 none false, [])
  | '?' => (repeated 0 (some 1) false, [])
  | '{' => (count {}, [])
  | c => (between, [.atom (.char c)])

/-- Reads a character that does not belong to the token in front of it. -/
def next (m : Mode) (c : Char) : Mode × List Token :=
  let (n, ts) := start c
  (n, m.pending ++ ts)

/-- Reads a character of a count. -/
def countStep (n : Count) (c : Char) : Except PatternFault Mode :=
  (n.step c).map fun
    | .inl n => count n
    | .inr (least, most) => repeated least most true

/-- Whether the name of a place at a word may hold a character. -/
def isPlaceName (c : Char) : Bool := c.isAlpha || c == '-'

/-- The places at words that are known by name. -/
def wordPlace? : List Char → Option WordPlace
  | ['s', 't', 'a', 'r', 't'] => some .start
  | ['e', 'n', 'd'] => some .stop
  | ['s', 't', 'a', 'r', 't', '-', 'h', 'a', 'l', 'f'] => some .noneBefore
  | ['e', 'n', 'd', '-', 'h', 'a', 'l', 'f'] => some .noneAfter
  | _ => none

/-- Reads a character. -/
def step : Mode → Char → Except PatternFault (Mode × List Token)
  | between, c => .ok (next between c)
  | repeated least most counted, c =>
    if c = '?' then .ok (between, [.rounds least most true])
    else .ok (next (repeated least most counted) c)
  | count n, c => (countStep n c).map (·, [])
  | opened, c => .ok (if c = '?' then (header .asked, []) else next opened c)
  | header h, c => (h.step c).map fun
    | .inl h => (header h, [])
    | .inr t => (between, [t])
  | escape e, c => (e.step c).map fun
    | .inl e => (escape e, [])
    | .inr a => if a = .place (.word .boundary) then (boundary, []) else (between, [.atom a])
  | boundary, c => .ok (if c = '{' then (boundaryBrace, []) else next boundary c)
  | boundaryBrace, c =>
    if isPlaceName c then .ok (boundaryName [c], [])
    else (countStep {} c).map (·, pending boundaryBrace)
  | boundaryName read, c =>
    if isPlaceName c then .ok (boundaryName (c :: read), [])
    else if c = '}' then
      match wordPlace? read.reverse with
      | some place => .ok (between, [.atom (.place (.word place))])
      | none => .error .unknownWordPlace
    else .error .unclosedWordPlace
  | bracket r, c => (r.step c).map fun
    | .inl r => (bracket r, [])
    | .inr c => (between, [.bracket c])

/-- Whether blanks and comments are passed over here where they count for nothing. -/
def spaced : Mode → Bool
  | header _ => false
  | escape e => e.spaced
  | bracket r => r.spaced
  | _ => true

/-- Passes over a character of a blank or a comment. -/
def pass (c : Char) : Mode → Mode × List Token
  | repeated least most false => (between, pending (repeated least most false))
  | boundary => (between, pending boundary)
  | bracket r => (bracket (r.pass c), [])
  | m => (m, [])

/-- The last tokens of a pattern that ends here. -/
def finish : Mode → Except PatternFault (List Token)
  | count _ => .error .unclosedCount
  | opened | header _ => .error .unclosedGroup
  | escape _ => .error .endsWithBackslash
  | boundaryBrace | boundaryName _ => .error .unclosedWordPlace
  | bracket _ => .error .unclosedClass
  | m => .ok m.pending

end Mode

/-- Whether blanks and comments count for nothing. -/
structure Verbosity where
  now : Bool := false
  /-- The same around the groups that are open, the innermost first. -/
  around : List Bool := []
deriving DecidableEq, Repr

namespace Verbosity

/-- The same after a change of flags. -/
def change (v : Verbosity) (c : FlagChange) : Verbosity :=
  { v with now := (c.lookup .verbose).getD v.now }

/-- Opens a group. -/
def push (v : Verbosity) : Verbosity := { v with around := v.now :: v.around }

/-- What a token does. -/
def step (v : Verbosity) : Token → Except PatternFault Verbosity
  | .start (.capturing _) => .ok v.push
  | .start (.plain c) => .ok (v.push.change c)
  | .close =>
    match v.around with
    | [] => .error .unopenedGroup
    | now :: around => .ok { now, around }
  | .flags c => .ok (v.change c)
  | _ => .ok v

end Verbosity

/-- Where the lexer is. -/
structure Lexer where
  mode : Mode := .between
  /-- In a comment, up to the end of the line. -/
  comment : Bool := false
  verbosity : Verbosity := {}

namespace Lexer

/-- Whether a character counts for nothing. -/
def passes (l : Lexer) (c : Char) : Bool :=
  l.comment || l.verbosity.now && l.mode.spaced && (Text.isBlank c || c == '#')

/-- Reads a character; gives the tokens that are complete then. -/
def step (l : Lexer) (c : Char) : Except PatternFault (Lexer × List Token) :=
  if l.passes c then
    let (mode, ts) := l.mode.pass c
    .ok ({ l with mode, comment := if l.comment then c != '\n' else c == '#' }, ts)
  else do
    let (mode, ts) ← l.mode.step c
    return ({ mode, verbosity := ← ts.foldlM Verbosity.step l.verbosity }, ts)

/-- Reads characters in turn. -/
def run (l : Lexer) : List Char → Except PatternFault (Lexer × List Token)
  | [] => .ok (l, [])
  | c :: cs => do
    let (l, ts) ← l.step c
    let (l, us) ← l.run cs
    return (l, ts ++ us)

end Lexer

/-- The tokens of a written pattern. -/
def tokens (cs : List Char) : Except PatternFault (List Token) := do
  let (l, ts) ← Lexer.run {} cs
  return ts ++ (← l.mode.finish)

end CommandConsole.Pattern

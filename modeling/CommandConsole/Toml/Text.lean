import CommandConsole.Json.Quoted

/-!
# CommandConsole.Toml.Text — strings and keys of TOML

Strings stand in double quotes, with escapes, or in single quotes, without; three quotes in place of
one let a string go over several lines. Every reader gives what it has read and what follows it.

* `string?`: a string of any of the four forms.
* `key?`: a key of one or more parts with dots between them.
-/

namespace CommandConsole.Toml

/-- Reads something off the front of a text. -/
abbrev Reader (α : Type) := List Char → Option (α × List Char)

/-- Whether a character is white space within a line. -/
def isSpace (c : Char) : Bool := c == ' ' || c == '\t'

/-- Drops white space within the line. -/
def skipSpace (cs : List Char) : List Char := cs.dropWhile isSpace

/-- Whether a character may stand in a line: all but control characters, of which the tab may. -/
def isPlain (c : Char) : Bool := c == '\t' || (' ' ≤ c && c ≠ '\x7f')

/-- Drops a line break, if there is one. -/
def lineBreak? : List Char → Option (List Char)
  | '\n' :: cs => some cs
  | '\r' :: '\n' :: cs => some cs
  | _ => none

/-- Drops a comment, if there is one. -/
def skipComment : List Char → List Char
  | '#' :: cs => cs.dropWhile isPlain
  | cs => cs

/-- What follows the end of a line: blanks, a comment, and a line break or the end of the text. -/
def endOfLine? (cs : List Char) : Option (List Char) :=
  match skipComment (skipSpace cs) with
  | [] => some []
  | cs => lineBreak? cs

/-- The value of hexadecimal digits. -/
def hex? : List Char → Nat → Option Nat
  | [], n => some n
  | c :: cs, n => do hex? cs (n * 16 + (← Json.hexDigit? c))

/-- The character with a code point that is not half of a surrogate pair. -/
def scalar? (n : Nat) : Option Char :=
  if n < 0xD800 || (0xE000 ≤ n && n < 0x110000) then some (Char.ofNat n) else none

/-- Reads what follows a backslash. -/
def escape? : Reader Char
  | 'b' :: cs => some ('\x08', cs)
  | 't' :: cs => some ('\t', cs)
  | 'n' :: cs => some ('\n', cs)
  | 'f' :: cs => some ('\x0c', cs)
  | 'r' :: cs => some ('\r', cs)
  | '"' :: cs => some ('"', cs)
  | '\\' :: cs => some ('\\', cs)
  | 'u' :: cs => if cs.length < 4 then none else do
    return (← scalar? (← hex? (cs.take 4) 0), cs.drop 4)
  | 'U' :: cs => if cs.length < 8 then none else do
    return (← scalar? (← hex? (cs.take 8) 0), cs.drop 8)
  | _ => none

/-- Puts a character in front of what is read after it. -/
def before (c : Char) : List Char × List Char → List Char × List Char
  | (text, rest) => (c :: text, rest)

/-- Reads a string in double quotes after its first quote, with so many steps to spare. -/
def basicWithin? : Nat → Reader (List Char)
  | 0, _ => none
  | _ + 1, [] => none
  | steps + 1, c :: cs =>
    if c = '"' then some ([], cs)
    else if c = '\\' then do
      let (d, rest) ← escape? cs
      return before d (← basicWithin? steps rest)
    else if isPlain c then (basicWithin? steps cs).map (before c)
    else none

/-- Reads a string in single quotes after its first quote. -/
def literal? : Reader (List Char)
  | [] => none
  | c :: cs =>
    if c = '\'' then some ([], cs)
    else if isPlain c then (literal? cs).map (before c)
    else none

/-- Drops the blanks and line breaks after a backslash at the end of a line. -/
def skipBlankLines : List Char → List Char
  | [] => []
  | '\r' :: '\n' :: cs => skipBlankLines cs
  | c :: cs => if isSpace c || c = '\n' then skipBlankLines cs else c :: cs

/-- The end of a string over several lines: three quotes, with one or two more before them that
belong to the string. -/
def longEnd? (quote : Char) (cs : List Char) : Option (List Char × List Char) :=
  let quotes := (cs.takeWhile (· == quote)).length
  if quotes < 3 then none
  else
    let inside := min (quotes - 3) 2
    some (List.replicate inside quote, cs.drop (inside + 3))

/-- Reads a string over several lines after its first quotes, with so many steps to spare. -/
def longWithin? (quote : Char) (escapes : Bool) : Nat → Reader (List Char)
  | 0, _ => none
  | _ + 1, [] => none
  | steps + 1, c :: cs =>
    if c = quote then
      match longEnd? quote (c :: cs) with
      | some ending => some ending
      | none => (longWithin? quote escapes steps cs).map (before c)
    else if escapes && c = '\\' then
      match lineBreak? (skipSpace cs) with
      | some rest => longWithin? quote escapes steps (skipBlankLines rest)
      | none => do
        let (d, rest) ← escape? cs
        return before d (← longWithin? quote escapes steps rest)
    else match lineBreak? (c :: cs) with
      | some rest => (longWithin? quote escapes steps rest).map (before '\n')
      | none => if isPlain c then (longWithin? quote escapes steps cs).map (before c) else none

/-- Reads a string over several lines after its first quotes; a line break in front does not
count. -/
def long? (quote : Char) (escapes : Bool) (cs : List Char) : Option (List Char × List Char) :=
  let cs := (lineBreak? cs).getD cs
  longWithin? quote escapes (cs.length + 1) cs

/-- Reads a string. -/
def string? : Reader String
  | '"' :: '"' :: '"' :: cs => (long? '"' true cs).map fun (s, rest) => (.ofList s, rest)
  | '\'' :: '\'' :: '\'' :: cs => (long? '\'' false cs).map fun (s, rest) => (.ofList s, rest)
  | '"' :: cs => (basicWithin? (cs.length + 1) cs).map fun (s, rest) => (.ofList s, rest)
  | '\'' :: cs => (literal? cs).map fun (s, rest) => (.ofList s, rest)
  | _ => none

/-- Whether a character can be part of a key without quotes. -/
def isKeyPart (c : Char) : Bool := c.isAlphanum || c == '_' || c == '-'

/-- Reads a key without dots. -/
def simpleKey? : Reader String
  | '"' :: cs => (basicWithin? (cs.length + 1) cs).map fun (s, rest) => (.ofList s, rest)
  | '\'' :: cs => (literal? cs).map fun (s, rest) => (.ofList s, rest)
  | cs =>
    let name := cs.takeWhile isKeyPart
    if name.isEmpty then none else some (.ofList name, cs.dropWhile isKeyPart)

/-- Reads the parts of a key, blanks around each, with so many steps to spare. -/
def keyWithin? : Nat → Reader (List String)
  | 0, _ => none
  | steps + 1, cs => do
    let (part, rest) ← simpleKey? (skipSpace cs)
    match skipSpace rest with
    | '.' :: rest => return (← keyWithin? steps rest).map (part :: ·) id
    | rest => return ([part], rest)

/-- How deep keys and values may nest. -/
def depthLimit : Nat := 80

/-- Reads a key of one or more parts. -/
def key? (cs : List Char) : Option (List String × List Char) := do
  let (parts, rest) ← keyWithin? (cs.length + 1) cs
  if parts.length < depthLimit then return (parts, rest) else none

end CommandConsole.Toml

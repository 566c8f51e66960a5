import CommandConsole.Decimal.Nearest
import CommandConsole.Json.Quoted

/-!
# CommandConsole.Json.Lexeme — the lexemes of JSON

`lexemes?` cuts a text into lexemes and drops the white space between them. A number counts as an
integer when it is written without fraction and exponent and is not `-0`.
-/

namespace CommandConsole.Json

/-- A lexeme of JSON. -/
inductive Lexeme where
  | openBrace | closeBrace | openBracket | closeBracket | colon | comma
  /-- A string with the text it holds, if it holds one. -/
  | string (held : Option String)
  | integer (value : Int)
  /-- Any other number. -/
  | number
  | null
  | bool (value : Bool)
deriving DecidableEq, Repr

open Decimal (isDigit ofDigits)

/-- Whether a character is white space between lexemes. -/
def isSpace (c : Char) : Bool := c == ' ' || c == '\t' || c == '\n' || c == '\r'

/-- Reads the fraction of a number, if there is one; whether there is, and what follows. -/
def fraction? : List Char → Option (Bool × List Char)
  | '.' :: cs =>
    if (cs.takeWhile isDigit).isEmpty then none else some (true, cs.dropWhile isDigit)
  | cs => some (false, cs)

/-- Reads the exponent of a number, if there is one; whether there is, and what follows. -/
def exponent? : List Char → Option (Bool × List Char)
  | [] => some (false, [])
  | c :: cs =>
    if c = 'e' || c = 'E' then
      let digits := (Decimal.takeSign cs).2
      if (digits.takeWhile isDigit).isEmpty then none else some (true, digits.dropWhile isDigit)
    else some (false, c :: cs)

/-- Reads a number that starts with a digit. -/
def number? (negative : Bool) (cs : List Char) : Option (Lexeme × List Char) := do
  let digits := cs.takeWhile isDigit
  let rest := cs.dropWhile isDigit
  if digits.isEmpty || (digits.head? = some '0' && digits.length ≠ 1) then none
  else
    let (hasFraction, rest) ← fraction? rest
    let (hasExponent, rest) ← exponent? rest
    let value := ofDigits digits
    if hasFraction || hasExponent || (negative && value = 0) then return (.number, rest)
    else return (.integer (if negative then -(value : Int) else value), rest)

/-- Reads a word if the characters start with it. -/
def word? (word : List Char) (lexeme : Lexeme) (cs : List Char) : Option (Lexeme × List Char) :=
  if word.isPrefixOf cs then some (lexeme, cs.drop word.length) else none

/-- Reads one lexeme that starts with the given character. -/
def lexeme? (c : Char) (cs : List Char) : Option (Lexeme × List Char) :=
  match c with
  | '{' => some (.openBrace, cs)
  | '}' => some (.closeBrace, cs)
  | '[' => some (.openBracket, cs)
  | ']' => some (.closeBracket, cs)
  | ':' => some (.colon, cs)
  | ',' => some (.comma, cs)
  | '"' =>
    (pieces? .plain cs).map fun (ps, rest) => (.string ((assemble? ps).map String.ofList), rest)
  | '-' => number? true cs
  | 't' => word? ['r', 'u', 'e'] (.bool true) cs
  | 'f' => word? ['a', 'l', 's', 'e'] (.bool false) cs
  | 'n' => word? ['u', 'l', 'l'] .null cs
  | c => if isDigit c then number? false (c :: cs) else none

/-- Reads lexemes with so many steps to spare; each step uses up a character or more. -/
def lexemesWithin? : Nat → List Char → Option (List Lexeme)
  | _, [] => some []
  | 0, _ :: _ => none
  | steps + 1, c :: cs =>
    if isSpace c then lexemesWithin? steps cs
    else match lexeme? c cs with
      | none => none
      | some (lexeme, rest) => (lexemesWithin? steps rest).map (lexeme :: ·)

/-- The lexemes of a text; none if some part of it is not one. -/
def lexemes? (s : String) : Option (List Lexeme) :=
  lexemesWithin? s.toList.length s.toList

end CommandConsole.Json

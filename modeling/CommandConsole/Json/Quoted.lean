/-!
# CommandConsole.Json.Quoted — strings as JSON writes them

`quote` writes a string in its quotes. It is read in two steps: `pieces?` reads what stands between
the quotes, and `assemble?` finds the text it holds. A string with half of a surrogate pair is well
formed but holds no text.

* `length_of_pieces?`: reading uses up at least the closing quote.
-/

namespace CommandConsole.Json

/-- The value of a hexadecimal digit. -/
def hexDigit? (c : Char) : Option Nat :=
  if '0' ≤ c && c ≤ '9' then some (c.toNat - 48)
  else if 'a' ≤ c && c ≤ 'f' then some (c.toNat - 87)
  else if 'A' ≤ c && c ≤ 'F' then some (c.toNat - 55)
  else none

/-- The character that a one-letter escape stands for. -/
def escape? : Char → Option Char
  | '"' => some '"'
  | '\\' => some '\\'
  | '/' => some '/'
  | 'b' => some '\x08'
  | 'f' => some '\x0c'
  | 'n' => some '\n'
  | 'r' => some '\r'
  | 't' => some '\t'
  | _ => none

/-- What a string is written with: characters, and code units given by number. -/
inductive Piece where
  | char (c : Char)
  | unit (value : Nat)
deriving DecidableEq, Repr

/-- Where in a string the reader is. -/
inductive Place where
  | plain
  /-- After a backslash. -/
  | escape
  /-- In a code unit, after so many digits with this value. -/
  | hex (digits value : Nat)

/-- Reads the pieces of a string up to its closing quote, and what follows it. -/
def pieces? : Place → List Char → Option (List Piece × List Char)
  | _, [] => none
  | .plain, c :: cs =>
    if c = '"' then some ([], cs)
    else if c = '\\' then pieces? .escape cs
    else if c < ' ' then none
    else (pieces? .plain cs).map fun (ps, rest) => (.char c :: ps, rest)
  | .escape, c :: cs =>
    if c = 'u' then pieces? (.hex 0 0) cs
    else match escape? c with
      | none => none
      | some d => (pieces? .plain cs).map fun (ps, rest) => (.char d :: ps, rest)
  | .hex digits value, c :: cs =>
    match hexDigit? c with
    | none => none
    | some d =>
      if digits = 3 then
        (pieces? .plain cs).map fun (ps, rest) => (.unit (value * 16 + d) :: ps, rest)
      else pieces? (.hex (digits + 1) (value * 16 + d)) cs

theorem length_of_pieces? {place : Place} {cs rest : List Char} {ps : List Piece}
    (h : pieces? place cs = some (ps, rest)) : rest.length < cs.length := by
  fun_induction pieces? place cs generalizing ps rest <;>
    grind [Option.map_eq_some_iff]

/-- Whether a code unit is the first half of a pair. -/
def isFirstHalf (unit : Nat) : Bool := 0xD800 ≤ unit && unit < 0xDC00

/-- Whether a code unit is the second half of a pair. -/
def isSecondHalf (unit : Nat) : Bool := 0xDC00 ≤ unit && unit < 0xE000

/-- The text that pieces hold; none if half of a pair stands alone. -/
def assemble? : List Piece → Option (List Char)
  | [] => some []
  | .char c :: ps => (assemble? ps).map (c :: ·)
  | .unit a :: .unit b :: ps =>
    if isFirstHalf a && isSecondHalf b then
      (assemble? ps).map (Char.ofNat (0x10000 + (a - 0xD800) * 0x400 + (b - 0xDC00)) :: ·)
    else if isFirstHalf a || isSecondHalf a then none
    else (assemble? (.unit b :: ps)).map (Char.ofNat a :: ·)
  | .unit a :: ps =>
    if isFirstHalf a || isSecondHalf a then none else (assemble? ps).map (Char.ofNat a :: ·)

/-- A lower-case hexadecimal digit. -/
def hexLower (n : Nat) : Char :=
  if n < 10 then Char.ofNat (48 + n) else Char.ofNat (87 + n)

/-- A character as it is written between quotes. -/
def encodeChar (c : Char) : List Char :=
  if c = '"' then ['\\', '"']
  else if c = '\\' then ['\\', '\\']
  else if c = '\x08' then ['\\', 'b']
  else if c = '\x0c' then ['\\', 'f']
  else if c = '\n' then ['\\', 'n']
  else if c = '\r' then ['\\', 'r']
  else if c = '\t' then ['\\', 't']
  else if c < ' ' then ['\\', 'u', '0', '0', hexLower (c.toNat / 16), hexLower (c.toNat % 16)]
  else [c]

/-- A string in its quotes. -/
def quote (s : String) : List Char :=
  '"' :: s.toList.flatMap encodeChar ++ ['"']

end CommandConsole.Json

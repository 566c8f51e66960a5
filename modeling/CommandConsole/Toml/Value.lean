import CommandConsole.Decimal.Nearest
import CommandConsole.Toml.Text

/-!
# CommandConsole.Toml.Value — values of TOML

Strings, numbers, truth values, dates and times, arrays, and tables. A table also remembers how it
came about, which decides whether more may be added to it.

* `number?`, `moment?`: the values that start with a digit or a sign.
* `addKey?`: adds a key to a table; a key can be given only once.
* `value?`: a value of any kind.
-/

namespace CommandConsole.Toml

/-- How a table came about. -/
inductive TableOrigin where
  /-- By a header of its own. -/
  | header
  /-- By the header of a table inside it. -/
  | innerHeader
  /-- By a key with dots. -/
  | dottedKey
deriving DecidableEq, Repr

/-- A value, or a table that is not a value. -/
inductive Node where
  | string (text : String)
  | integer (value : Int)
  | float (value : Float)
  | bool (value : Bool)
  /-- A date, a time, or both. -/
  | moment
  | array (items : List Node)
  | inline (entries : List (String × Node))
  | table (origin : TableOrigin) (entries : List (String × Node))
  /-- An array of tables, newest first. -/
  | tables (newestFirst : List Node)
deriving Inhabited

/-- The entries of a table. -/
abbrev Entries := List (String × Node)

/-! ### Numbers -/

/-- Reads digits with single underscores between them. -/
def grouped (isDigit : Char → Bool) : List Char → List Char × List Char
  | [] => ([], [])
  | c :: cs =>
    if isDigit c then before c (grouped isDigit cs)
    else if c = '_' && cs.head?.any isDigit then grouped isDigit cs
    else ([], c :: cs)

/-- Reads digits that start with a digit. -/
def grouped? (isDigit : Char → Bool) (cs : List Char) : Option (List Char × List Char) :=
  if cs.head?.any isDigit then some (grouped isDigit cs) else none

/-- Reads decimal digits without needless zeros in front. -/
def wholeDigits? : Reader (List Char)
  | '0' :: cs => some (['0'], cs)
  | cs => grouped? Decimal.isDigit cs

/-- Reads an exponent. -/
def exponent? : Reader Int
  | c :: cs =>
    if c = 'e' || c = 'E' then do
      let (negative, cs) := Decimal.takeSign cs
      let (digits, rest) ← grouped? Decimal.isDigit cs
      let n : Int := Decimal.ofDigits digits
      return (if negative then -n else n, rest)
    else none
  | [] => none

/-- Reads the fraction and the exponent of a number, of which one is needed. -/
def fraction? : Reader (List Char × Int)
  | '.' :: cs => do
    let (digits, rest) ← grouped? Decimal.isDigit cs
    match exponent? rest with
    | some (e, rest) => return ((digits, e), rest)
    | none => return ((digits, 0), rest)
  | cs => (exponent? cs).map fun (e, rest) => (([], e), rest)

/-- Reads a number with a fraction or an exponent; one too large for any float is refused. -/
def float? (cs : List Char) : Option (Node × List Char) := do
  let (negative, cs) := Decimal.takeSign cs
  let (whole, rest) ← wholeDigits? cs
  let ((fraction, e), rest) ← fraction? rest
  let x := Decimal.nearest negative (Decimal.ofDigits (whole ++ fraction)) (e - fraction.length)
  if x.isInf && !negative then none else return (.float x, rest)

/-- Reads infinity, or what is not a number. -/
def specialFloat? (cs : List Char) : Option (Node × List Char) :=
  let (negative, cs) := Decimal.takeSign cs
  match cs with
  | 'i' :: 'n' :: 'f' :: rest =>
    some (.float (Float.ofBits (if negative then 0xfff0000000000000 else 0x7ff0000000000000)), rest)
  | 'n' :: 'a' :: 'n' :: rest => some (.float (Float.ofBits 0x7ff8000000000000), rest)
  | _ => none

/-- The integer with a value, if it fits into 64 bits. -/
def integerNode? (n : Int) : Option Node :=
  if -0x8000000000000000 ≤ n && n < 0x8000000000000000 then some (.integer n) else none

/-- Reads an integer whose digits have the given base. -/
def based? (base : Nat) (cs : List Char) : Option (Node × List Char) := do
  let isDigit (c : Char) : Bool := (Json.hexDigit? c).any (· < base)
  let (digits, rest) ← grouped? isDigit cs
  let n := digits.foldl (fun n c => n * base + (Json.hexDigit? c).getD 0) 0
  return (← integerNode? n, rest)

/-- Reads an integer. -/
def integer? : Reader Node
  | '0' :: 'x' :: cs => based? 16 cs
  | '0' :: 'o' :: cs => based? 8 cs
  | '0' :: 'b' :: cs => based? 2 cs
  | cs => do
    let (negative, cs) := Decimal.takeSign cs
    let (digits, rest) ← wholeDigits? cs
    let n : Int := Decimal.ofDigits digits
    return (← integerNode? (if negative then -n else n), rest)

/-! ### Dates and times -/

/-- Reads so many digits whose value lies in a range. -/
def field? (width least greatest : Nat) (cs : List Char) : Option (Nat × List Char) :=
  match Decimal.nat? (cs.take width) with
  | some n =>
    if width ≤ cs.length && least ≤ n && n ≤ greatest then some (n, cs.drop width) else none
  | none => none

/-- Reads one given character. -/
def sign? (c : Char) : List Char → Option (List Char)
  | d :: cs => if c = d then some cs else none
  | [] => none

/-- The number of days in a month. -/
def daysIn (year month : Nat) : Nat :=
  if month = 2 then
    if year % 4 = 0 && (year % 100 ≠ 0 || year % 400 = 0) then 29 else 28
  else if month = 4 || month = 6 || month = 9 || month = 11 then 30
  else 31

/-- Reads a date. -/
def date? (cs : List Char) : Option (List Char) := do
  let (year, cs) ← field? 4 0 9999 cs
  let (month, cs) ← field? 2 1 12 (← sign? '-' cs)
  let (_, cs) ← field? 2 1 (daysIn year month) (← sign? '-' cs)
  return cs

/-- Reads a time of day. -/
def time? (cs : List Char) : Option (List Char) := do
  let (_, cs) ← field? 2 0 23 cs
  let (_, cs) ← field? 2 0 59 (← sign? ':' cs)
  let (_, cs) ← field? 2 0 60 (← sign? ':' cs)
  match cs with
  | '.' :: rest =>
    if rest.head?.any Decimal.isDigit then return rest.dropWhile Decimal.isDigit else return cs
  | _ => return cs

/-- Drops the distance from universal time, if there is one. -/
def skipOffset (cs : List Char) : List Char :=
  match cs with
  | 'Z' :: rest | 'z' :: rest => rest
  | '+' :: rest | '-' :: rest =>
    let offset := do
      let (_, rest) ← field? 2 0 23 rest
      let (_, rest) ← field? 2 0 59 (← sign? ':' rest)
      return rest
    offset.getD cs
  | _ => cs

/-- Reads a date, a time, or both. -/
def moment? (cs : List Char) : Option (Node × List Char) :=
  match date? cs with
  | some rest =>
    match rest with
    | c :: afterDate =>
      if c = 'T' || c = 't' || c = ' ' then
        match time? afterDate with
        | some afterTime => some (.moment, skipOffset afterTime)
        | none => some (.moment, rest)
      else some (.moment, rest)
    | [] => some (.moment, [])
  | none => (time? cs).map (.moment, ·)

/-- Reads a value that starts with a digit or a sign. -/
def number? (cs : List Char) : Option (Node × List Char) :=
  (moment? cs).orElse fun _ => (float? cs).orElse fun _ => (specialFloat? cs).orElse fun _ =>
    integer? cs

/-! ### Tables -/

/-- The node under a key. -/
def find? (es : Entries) (key : String) : Option Node :=
  (es.find? (·.1 == key)).map (·.2)

/-- Sets the node under a key. -/
def set (es : Entries) (key : String) (n : Node) : Entries :=
  if es.any (·.1 == key) then es.map fun e => if e.1 == key then (key, n) else e
  else es ++ [(key, n)]

/-- Adds a key that is not there yet. -/
def addNew? (es : Entries) (key : String) (n : Node) : Option Entries :=
  if (find? es key).isSome then none else some (es ++ [(key, n)])

/-- Adds a key below the tables that the parts in front of it name. Tables made by dotted keys can
be added to by dotted keys, and only they. -/
def addDotted? (key : String) (n : Node) : List String → TableOrigin → Entries → Option Entries
  | [], origin, es => if origin = .dottedKey then addNew? es key n else none
  | part :: parts, _, es =>
    match find? es part with
    | none => do
      return es ++ [(part, .table .dottedKey (← addDotted? key n parts .dottedKey []))]
    | some (.table .header _) => none
    | some (.table origin inner) => do
      return set es part (.table origin (← addDotted? key n parts origin inner))
    | some (.tables (.table origin inner :: older)) => do
      return set es part (.tables (.table origin (← addDotted? key n parts origin inner) :: older))
    | some _ => none

/-- Adds a key with dots to a table. -/
def addKey? (es : Entries) (key : List String) (n : Node) : Option Entries :=
  match key.getLast? with
  | none => none
  | some last =>
    if key.length = 1 then addNew? es last n else addDotted? last n key.dropLast .header es

/-! ### Values -/

/-- Drops blanks, line breaks and comments, with so many steps to spare. -/
def skipLinesWithin : Nat → List Char → List Char
  | 0, cs => cs
  | steps + 1, cs =>
    let cs := skipSpace cs
    match lineBreak? (skipComment cs) with
    | some rest => skipLinesWithin steps rest
    | none => cs

/-- Drops blanks, line breaks and comments. -/
def skipLines (cs : List Char) : List Char := skipLinesWithin (cs.length + 1) cs

/-- Reads the items of an array up to its bracket, with so many steps to spare. -/
def itemsWithin? (value? : Reader Node) : Nat → Reader (List Node)
  | 0, _ => none
  | steps + 1, cs =>
    match skipLines cs with
    | ']' :: rest => some ([], rest)
    | cs => do
      let (item, rest) ← value? cs
      match skipLines rest with
      | ',' :: rest =>
        let (items, rest) ← itemsWithin? value? steps rest
        return (item :: items, rest)
      | ']' :: rest => return ([item], rest)
      | _ => none

/-- Reads the entries of a table in braces, at least one, with so many steps to spare. -/
def entriesWithin? (value? : Reader Node) : Nat → Entries → Reader Entries
  | 0, _, _ => none
  | steps + 1, es, cs => do
    let (key, rest) ← key? cs
    let (n, rest) ← value? (skipSpace (← sign? '=' rest))
    let es ← addKey? es key n
    match skipSpace rest with
    | ',' :: rest => entriesWithin? value? steps es rest
    | '}' :: rest => return (es, rest)
    | _ => none

/-- Reads a value that nests no deeper than so many levels. -/
def valueWithin? : Nat → Reader Node
  | depth, cs =>
    match cs with
    | '"' :: _ | '\'' :: _ => (string? cs).map fun (s, rest) => (.string s, rest)
    | '[' :: cs =>
      match depth with
      | 0 => none
      | depth + 1 =>
        (itemsWithin? (valueWithin? depth) (cs.length + 1) cs).map fun (items, rest) =>
          (.array items, rest)
    | '{' :: cs =>
      match depth with
      | 0 => none
      | depth + 1 =>
        match skipSpace cs with
        | '}' :: rest => some (.inline [], rest)
        | cs =>
          (entriesWithin? (valueWithin? depth) (cs.length + 1) [] cs).map fun (es, rest) =>
            (.inline es, rest)
    | 't' :: 'r' :: 'u' :: 'e' :: rest => some (.bool true, rest)
    | 'f' :: 'a' :: 'l' :: 's' :: 'e' :: rest => some (.bool false, rest)
    | cs => number? cs

/-- Reads a value. -/
def value? : Reader Node := valueWithin? (depthLimit - 1)

end CommandConsole.Toml

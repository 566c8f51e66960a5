import CommandConsole.Toml.Value

/-!
# CommandConsole.Toml.Document — documents of TOML

A document is a list of lines: keys with their values, and headers that say which table the keys
below them belong to. `parse?` gives the entries of the outermost table.
-/

namespace CommandConsole.Toml

/-- A document as far as it has been read. -/
structure Document where
  entries : Entries := []
  /-- The table that keys belong to. -/
  current : List String := []

/-- Changes the node that a key names; tables on the way to it are made if they are missing. -/
def update? (change : Option Node → Option Node) : List String → Entries → Option Entries
  | [], _ => none
  | [key], es => do return set es key (← change (find? es key))
  | part :: parts, es =>
    match find? es part with
    | none => do return set es part (.table .innerHeader (← update? change parts []))
    | some (.table origin inner) => do
      return set es part (.table origin (← update? change parts inner))
    | some (.tables (.table origin inner :: older)) => do
      return set es part (.tables (.table origin (← update? change parts inner) :: older))
    | some _ => none

/-- What the header of a table makes of the node it names. -/
def openTable? : Option Node → Option Node
  | none => some (.table .header [])
  | some (.table .innerHeader inner) => some (.table .header inner)
  | some _ => none

/-- What the header of an array of tables makes of the node it names. -/
def openTables? : Option Node → Option Node
  | none => some (.tables [.table .header []])
  | some (.tables older) => some (.tables (.table .header [] :: older))
  | some _ => none

/-- Adds a key to the table under a header. -/
def addUnder? (key : List String) (n : Node) : Option Node → Option Node
  | some (.table origin inner) => (addKey? inner key n).map (.table origin)
  | some (.tables (.table origin inner :: older)) =>
    (addKey? inner key n).map fun inner => .tables (.table origin inner :: older)
  | _ => none

namespace Document

/-- Adds a key to the current table. -/
def add? (d : Document) (key : List String) (n : Node) : Option Document := do
  let entries ← if d.current.isEmpty then addKey? d.entries key n
    else update? (addUnder? key n) d.current d.entries
  return { d with entries }

/-- Goes on with the table that a header opens. -/
def header? (d : Document) (change : Option Node → Option Node) (key : List String) :
    Option Document := do
  return { entries := ← update? change key d.entries, current := key }

/-- Reads a line that is neither blank nor a comment. -/
def line? (d : Document) : List Char → Option (Document × List Char)
  | '[' :: '[' :: cs => do
    let (key, rest) ← key? cs
    return (← d.header? openTables? key, ← sign? ']' (← sign? ']' rest))
  | '[' :: cs => do
    let (key, rest) ← key? cs
    return (← d.header? openTable? key, ← sign? ']' rest)
  | cs => do
    let (key, rest) ← key? cs
    let (n, rest) ← value? (skipSpace (← sign? '=' rest))
    return (← d.add? key n, rest)

/-- Reads lines, with so many to spare. -/
def linesWithin? : Nat → Document → List Char → Option Document
  | 0, _, _ => none
  | steps + 1, d, cs =>
    match skipSpace cs with
    | [] => some d
    | '#' :: _ | '\n' :: _ | '\r' :: _ => do linesWithin? steps d (← endOfLine? cs)
    | cs => do
      let (d, rest) ← d.line? cs
      linesWithin? steps d (← endOfLine? rest)

end Document

/-- The entries of the outermost table of a document; a byte order mark in front does not count. -/
def parse? (text : String) : Option Entries :=
  let cs := match text.toList with
    | '\uFEFF' :: cs => cs
    | cs => cs
  (Document.linesWithin? (cs.length + 1) {} cs).map (·.entries)

end CommandConsole.Toml

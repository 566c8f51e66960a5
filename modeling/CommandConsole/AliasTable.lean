import CommandConsole.Error
import CommandConsole.TextMap
import CommandConsole.Text.Statements

/-!
# CommandConsole.AliasTable — lines that stand for other lines

An alias stands for a text of one or more statements. Names are trimmed wherever they are given, and
`reservedAlias` stands for every alias, so it can never be one.

* `lookup`, `expand`: what a line stands for.
* `register`, `deregister`: changes; `list` is what is shown.
-/

namespace CommandConsole

/-- The word that stands for every alias. -/
def reservedAlias : String := "all"

/-- What removing an alias did. -/
inductive Removal where
  /-- Every alias was removed, so many. -/
  | all (count : Nat)
  | one
  /-- There was no such alias. -/
  | missing
deriving DecidableEq, Repr

/-- The aliases and the texts they stand for. -/
structure AliasTable where
  entries : TextMap := .empty
deriving DecidableEq

namespace AliasTable

/-- The table without aliases. -/
def empty : AliasTable := {}

/-- The aliases of a saved map, and whether the reserved word was among them and left out. -/
def ofMap (saved : TextMap) : AliasTable × Bool :=
  (⟨saved.erase reservedAlias⟩, saved.contains reservedAlias)

/-- The text a line stands for. -/
def lookup (table : AliasTable) (line : String) : Option String :=
  table.entries.find? (Text.trim line)

/-- The statements a line stands for. -/
def expand (table : AliasTable) (line : String) : Option (List String) :=
  (table.lookup line).map Text.statements

/-- Makes a name stand for a text, whatever it stood for before. -/
def register (table : AliasTable) (name text : String) : Except ConsoleError AliasTable :=
  let name := Text.trim name
  if name = reservedAlias then .error (.reservedName name)
  else if name = "" then .error (.invalidArgument "alias name is empty")
  else .ok ⟨table.entries.insert name (Text.trim text)⟩

/-- Removes one alias, or every alias for the reserved word. -/
def deregister (table : AliasTable) (name : String) : Removal × AliasTable :=
  let name := Text.trim name
  if name = reservedAlias then (.all table.entries.size, empty)
  else if table.entries.contains name then (.one, ⟨table.entries.erase name⟩)
  else (.missing, table)

/-- The named alias with its text, or every alias for the reserved word. -/
def list (table : AliasTable) (name : String) : Except ConsoleError (List (String × String)) :=
  let name := Text.trim name
  if name = reservedAlias then .ok table.entries.entries
  else match table.entries.find? name with
    | some text => .ok [(name, text)]
    | none => .error (.unknownAlias name)

end AliasTable

end CommandConsole

import CommandConsole.Pattern.Flags
import CommandConsole.Pattern.Lexer

/-!
# CommandConsole.Pattern.Reader — reading written patterns

Tokens are taken in turn; the groups that are still open are kept in a list, the innermost first.
Flags hold to the end of the group they are set in. With each expression goes its depth: how many
groups, classes, repetitions, alternatives and sequences lie inside one another in it. A pattern
that is too deep is refused.
-/

namespace CommandConsole.Pattern

/-- The greatest depth of a pattern. -/
def depthLimit : Nat := 250

/-- An expression and its depth. -/
structure Item where
  expr : Expr
  depth : Nat := 0

namespace Item

/-- One item after the other. -/
def sequence (items : List Item) : Item :=
  let depth := items.foldl (fun depth i => max depth i.depth) 0
  ⟨.sequence (items.map (·.expr)), if items.length < 2 then depth else depth + 1⟩

/-- One of several items. -/
def anyOf (items : List Item) : Item :=
  let depth := items.foldl (fun depth i => max depth i.depth) 0
  ⟨.anyOf (items.map (·.expr)), if items.length < 2 then depth else depth + 1⟩

/-- Rounds of an item. -/
def rounds (least : Nat) (most : Option Nat) (greedy : Bool) (i : Item) : Item :=
  ⟨.rounds least most greedy i.expr, i.depth + 1⟩

/-- An item in parentheses, with the index of the group if it captures. -/
def group (index : Option Nat) (i : Item) : Item :=
  ⟨index.elim i.expr (.group · i.expr), i.depth + 1⟩

end Item

/-- The branches of a group as far as they are read, newest first. -/
structure Branches where
  flags : Flags := {}
  earlier : List Item := []
  items : List Item := []
  /-- Whether the newest item can be repeated. -/
  repeatable : Bool := false

namespace Branches

/-- The last branch as an item. -/
def last (b : Branches) : Item := .sequence b.items.reverse

/-- All branches as an item. -/
def item (b : Branches) : Item := .anyOf (b.last :: b.earlier).reverse

/-- Adds an item to the last branch. -/
def add (b : Branches) (i : Item) : Branches :=
  { b with items := i :: b.items, repeatable := true }

end Branches

/-- A group that is still open: the branches around it and its index, if it captures. -/
structure OpenGroup where
  around : Branches
  index : Option Nat

/-- Where the reader is. -/
structure ReaderState where
  branches : Branches := {}
  groups : List OpenGroup := []
  /-- How many capturing groups have been opened. -/
  captures : Nat := 0
  names : List String := []

namespace ReaderState

/-- Adds an item to the innermost group. -/
def add (r : ReaderState) (i : Item) : ReaderState :=
  { r with branches := r.branches.add i }

/-- Opens a group. -/
def openGroup (r : ReaderState) : GroupStart → Except PatternFault ReaderState
  | .plain change => .ok
    { r with
      branches := { flags := r.branches.flags.change change }
      groups := ⟨r.branches, none⟩ :: r.groups }
  | .capturing name =>
    match name.filter r.names.contains with
    | some name => .error (.duplicateName name)
    | none => .ok
      { branches := { flags := r.branches.flags }
        groups := ⟨r.branches, some (r.captures + 1)⟩ :: r.groups
        captures := r.captures + 1
        names := name.toList ++ r.names }

/-- Closes the innermost group. -/
def closeGroup (r : ReaderState) : Except PatternFault ReaderState :=
  match r.groups with
  | [] => .error .unopenedGroup
  | ⟨around, index⟩ :: groups =>
    .ok { r with branches := around.add (r.branches.item.group index), groups }

/-- Adds an expression, unless it is refused. -/
def addExpr (r : ReaderState) (depth : Nat) (e : Except PatternFault Expr) :
    Except PatternFault ReaderState :=
  e.map fun e => r.add ⟨e, depth⟩

/-- Repeats the last item. -/
def rounds (r : ReaderState) (least : Nat) (most : Option Nat) (greedy : Bool) :
    Except PatternFault ReaderState :=
  match r.branches.repeatable, r.branches.items with
  | true, i :: items => .ok
    { r with branches := { r.branches with items := i.rounds least most greedy :: items } }
  | _, _ => .error .nothingToRepeat

/-- Takes the next token. A change of flags is an item that reads nothing and cannot be repeated. -/
def step (r : ReaderState) : Token → Except PatternFault ReaderState
  | .atom a => r.addExpr 0 (r.branches.flags.atom a)
  | .dot => r.addExpr 0 r.branches.flags.dot
  | .bracket c => r.addExpr c.depth (r.branches.flags.bracket c.expr)
  | .start g => r.openGroup g
  | .close => r.closeGroup
  | .bar => .ok
    { r with branches :=
      { flags := r.branches.flags, earlier := r.branches.last :: r.branches.earlier } }
  | .flags change => .ok
    { r with branches :=
      { r.branches with
        flags := r.branches.flags.change change
        items := { expr := .empty } :: r.branches.items
        repeatable := false } }
  | .rounds least most marked => r.rounds least most (marked == r.branches.flags.swapGreed)

end ReaderState

/-- The expression of a list of tokens. -/
def Expr.ofTokens (ts : List Token) : Except PatternFault Expr := do
  let r ← ts.foldlM ReaderState.step {}
  if !r.groups.isEmpty then throw .unclosedGroup
  let i := r.branches.item
  if depthLimit < i.depth then throw .tooDeep
  return i.expr

/-- The pattern of tokens that are all taken, as long as it is not too deep. -/
theorem Expr.ofTokens_of_foldlM {ts : List Token} {r : ReaderState}
    (h : ts.foldlM ReaderState.step {} = .ok r) (hr : r.groups = []) :
    ofTokens ts = if depthLimit < r.branches.item.depth then .error .tooDeep
      else .ok r.branches.item.expr := by
  unfold ofTokens
  rw [h]
  show (do
    if !r.groups.isEmpty then throw .unclosedGroup
    let i := r.branches.item
    if depthLimit < i.depth then throw .tooDeep
    return i.expr : Except PatternFault Expr) = _
  rw [hr]
  by_cases hdeep : depthLimit < r.branches.item.depth
  · rw [if_pos hdeep]
    dsimp only
    rw [if_pos hdeep]
    rfl
  · rw [if_neg hdeep]
    dsimp only
    rw [if_neg hdeep]
    rfl

/-- The expression that is written by these characters. -/
def Expr.read (cs : List Char) : Except PatternFault Expr := do
  Expr.ofTokens (← tokens cs)

end CommandConsole.Pattern

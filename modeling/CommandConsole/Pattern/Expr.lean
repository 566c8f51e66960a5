import CommandConsole.Pattern

/-!
# CommandConsole.Pattern.Expr — patterns as they are written

A written pattern counts repetitions; `Expr.toPattern` spells the counts out as a `Pattern` and
marks its choices, each with a number of its own.

A round of a repetition may read nothing only if it is the first. So any number of rounds that can
read nothing become one round or more, or none at all.
-/

namespace CommandConsole.Pattern

/-- A pattern as it is written. -/
inductive Expr where
  | empty
  | one (set : CharSet)
  | anchor (a : Anchor)
  | seq (a b : Expr)
  | alt (a b : Expr)
  /-- At least `least` rounds, at most `most` of them if there is a limit. -/
  | rounds (least : Nat) (most : Option Nat) (greedy : Bool) (a : Expr)
  | group (index : Nat) (a : Expr)
deriving DecidableEq, Repr

namespace Expr

/-- Whether the empty text may match. -/
def nullable : Expr → Bool
  | empty | anchor _ => true
  | one _ => false
  | seq a b => a.nullable && b.nullable
  | alt a b => a.nullable || b.nullable
  | rounds least _ _ a => least == 0 || a.nullable
  | group _ a => a.nullable

/-- Whether no other text than the empty one can match. -/
def onlyEmpty : Expr → Bool
  | empty | anchor _ => true
  | one _ => false
  | seq a b | alt a b => a.onlyEmpty && b.onlyEmpty
  | rounds _ most _ a => most == some 0 || a.onlyEmpty
  | group _ a => a.onlyEmpty

/-- The counts of a repetition; more than one round of nothing but the empty text is too many. -/
def counts (least : Nat) (most : Option Nat) (onlyEmpty : Bool) : Nat × Option Nat :=
  if onlyEmpty then (min least 1, some ((most.getD 1).min 1)) else (least, most)

/-- Hands out the next mark. -/
def nextMark : StateM Nat Nat := fun n => (n, n + 1)

/-- So many copies of a pattern, one after the other, each made anew. -/
def copies (make : StateM Nat Pattern) : Nat → StateM Nat Pattern
  | 0 => pure .empty
  | 1 => make
  | n + 2 => do return .seq (← make) (← copies make (n + 1))

/-- A pattern or nothing. -/
def optional (greedy : Bool) (p : Pattern) : StateM Nat Pattern := do
  let mark ← nextMark
  return if greedy then .alt mark p .empty else .alt mark .empty p

/-- So many patterns or fewer, one after the other, each made anew. -/
def upTo (greedy : Bool) (make : StateM Nat Pattern) : Nat → StateM Nat Pattern
  | 0 => pure .empty
  | n + 1 => do
    let p ← make
    optional greedy (.seq p (← upTo greedy make n))

/-- Spells out an expression. -/
def build : Expr → StateM Nat Pattern
  | empty => pure .empty
  | one set => pure (.one set)
  | anchor a => pure (.anchor a)
  | seq a b => do return .seq (← a.build) (← b.build)
  | alt a b => do return .alt (← nextMark) (← a.build) (← b.build)
  | group index a => do return .group index (← a.build)
  | rounds least most greedy a =>
    match counts least most a.onlyEmpty with
    | (least, some most) => do
      return .seq (← copies a.build least) (← upTo greedy a.build (most - least))
    | (0, none) => do
      let mark ← nextMark
      let round ← a.build
      if a.nullable then optional greedy (.atLeastOne greedy mark round)
      else return .many greedy mark round
    | (least + 1, none) => do
      let needed ← copies a.build least
      let mark ← nextMark
      return .seq needed (.atLeastOne greedy mark (← a.build))

/-- The pattern that an expression writes. -/
def toPattern (e : Expr) : Pattern := (e.build 0).1

/-- One expression after the other. -/
def sequence : List Expr → Expr
  | [] => empty
  | [e] => e
  | e :: es => seq e (sequence es)

/-- One of several expressions, earlier ones preferred. -/
def anyOf : List Expr → Expr
  | [] => empty
  | [e] => e
  | e :: es => alt e (anyOf es)

end Expr

end CommandConsole.Pattern

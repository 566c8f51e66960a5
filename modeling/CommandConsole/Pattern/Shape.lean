import CommandConsole.Pattern.ByteRanges
import CommandConsole.Pattern.Expr

/-!
# CommandConsole.Pattern.Shape — what is left of a pattern for its automaton

Before an automaton is made of a pattern, the pattern is simplified: characters in a row become one
text, branches of single characters or of sets become one set, what all branches start with is
taken out of them, and needless repetitions go. `Shape.ofExpr` is the simplified pattern.
-/

namespace CommandConsole.Pattern

/-- A simplified pattern. -/
inductive Shape where
  | empty
  /-- No text matches. -/
  | never
  | text (cs : List Char)
  /-- A set of several characters and its pieces. -/
  | set (s : CharSet) (pieces : List (List (Nat × Nat)))
  | place (a : Anchor)
  | seq (a b : Shape)
  | alt (a b : Shape)
  | rounds (least : Nat) (most : Option Nat) (greedy : Bool) (a : Shape)
  | group (index : Nat) (a : Shape)
deriving DecidableEq

namespace Shape

/-- The shape of one character of a set. -/
def ofSet (s : CharSet) : Shape :=
  match byteRanges s, s.ranges with
  | [], _ => never
  | pieces, [(first, last)] =>
    if first = last then text [Char.ofNat first] else set s pieces
  | pieces, _ => set s pieces

/-- The parts of a sequence. -/
def parts : Shape → List Shape
  | empty => []
  | seq a b => a.parts ++ b.parts
  | a => [a]

/-- Joins texts in a row. -/
def joinTexts (shapes : List Shape) : List Shape :=
  shapes.foldr (fun a rest => match a, rest with
    | text cs, text ds :: rest => text (cs ++ ds) :: rest
    | a, rest => a :: rest) []

/-- One shape after the other. -/
def sequence : List Shape → Shape
  | [] => empty
  | [a] => a
  | a :: shapes => seq a (sequence shapes)

/-- One shape after the other, simplified. -/
def concat (shapes : List Shape) : Shape := sequence (joinTexts (shapes.flatMap parts))

/-- The branches of an alternative. -/
def branches : Shape → List Shape
  | alt a b => a.branches ++ b.branches
  | a => [a]

/-- One of several shapes. -/
def anyOf : List Shape → Shape
  | [] => never
  | [a] => a
  | a :: shapes => alt a (anyOf shapes)

/-- The character that is the only text of a shape. -/
def onlyChar? : Shape → Option Char
  | text [c] => some c
  | _ => none

/-- The set that a shape reads one character of. -/
def onlySet? : Shape → Option CharSet
  | set s _ => some s
  | _ => none

/-- The shapes that two lists start with alike. -/
def commonStart : List Shape → List Shape → List Shape
  | a :: as, b :: bs => if a = b then a :: commonStart as bs else []
  | _, _ => []

/-- The parts that all shapes start with, if all are sequences. -/
def sharedParts : List Shape → List Shape
  | [] => []
  | [a] => a.parts
  | a :: shapes => commonStart a.parts (sharedParts shapes)

/-- One of several shapes, put together into a set where that is possible. -/
def merge (shapes : List Shape) : Shape :=
  match shapes, shapes.mapM onlyChar?, shapes.mapM onlySet? with
  | [a], _, _ => a
  | _, some cs, _ => ofSet (.ofList cs)
  | _, _, some sets => ofSet (sets.foldl .union .none)
  | _, _, _ => anyOf shapes

/-- One of several shapes, simplified. -/
def choice (shapes : List Shape) : Shape :=
  let shapes := shapes.flatMap branches
  let shared := if shapes.all (1 < ·.parts.length) then sharedParts shapes else []
  if shapes.length < 2 || shared.isEmpty then merge shapes
  else concat (shared ++
    [merge ((shapes.map fun a => concat (a.parts.drop shared.length)).flatMap branches)])

/-- The branches of an expression, simplified. -/
def branchesOf : Expr → List Shape
  | .empty => [empty]
  | .one s => [ofSet s]
  | .anchor a => [place a]
  | .seq a b => [concat [choice (branchesOf a), choice (branchesOf b)]]
  | .alt a b => branchesOf a ++ branchesOf b
  | .group index a => [group index (choice (branchesOf a))]
  | .rounds least most greedy a =>
    match Expr.counts least most a.onlyEmpty with
    | (0, some 0) => [empty]
    | (1, some 1) => [choice (branchesOf a)]
    | (least, most) => [rounds least most greedy (choice (branchesOf a))]

/-- The shape of an expression. -/
def ofExpr (e : Expr) : Shape := choice (branchesOf e)

/-- Whether the empty text may match, as far as that can be told. -/
def canBeEmpty : Shape → Bool
  | empty | never | place _ => true
  | text _ | set .. => false
  | seq a b => a.canBeEmpty && b.canBeEmpty
  | alt a b => a.canBeEmpty || b.canBeEmpty
  | rounds least _ _ a => least == 0 || a.canBeEmpty
  | group _ a => a.canBeEmpty

end Shape

end CommandConsole.Pattern

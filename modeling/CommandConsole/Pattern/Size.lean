import Std.Data.HashMap.Basic
import CommandConsole.Pattern.Reader
import CommandConsole.Pattern.Shape

/-!
# CommandConsole.Pattern.Size — how large an automaton a pattern takes

A pattern may take no more room than the two automata that match its bytes, one forward and one
backward, are allowed: `sizeLimit` each. A state takes 32 bytes, a state that branches on ranges of
bytes 8 more for each range, and one that branches freely 4 more for each way to go.

The automata are not made; `Shape.count` counts what they would take and gives up at the limit. Only
sets of characters need care, since their states are shared as far as a small table remembers them.

* `fits`: whether a pattern stays within the limit.
* `read`: reads a pattern that does.
-/

namespace CommandConsole.Pattern

/-- How many bytes an automaton may take. -/
def sizeLimit : Nat := 10485760

/-- What an automaton takes as far as it is counted. -/
structure Room where
  states : Nat := 0
  /-- The bytes that ranges and ways to go take. -/
  more : Nat := 0

/-- The bytes in all. -/
def Room.bytes (r : Room) : Nat := 32 * r.states + r.more

/-- Counting that stops at the limit. -/
abbrev Counting := StateT Room Option

/-- Counts more bytes of a state. -/
def more (bytes : Nat) : Counting Unit := fun r =>
  let r := { r with more := r.more + bytes }
  if sizeLimit < r.bytes then none else some ((), r)

/-- Counts a state and so many more bytes for it; gives the number of the state. -/
def state (bytes : Nat) : Counting Nat := fun r =>
  let counted : Room := ⟨r.states + 1, r.more + bytes⟩
  if sizeLimit < counted.bytes then none else some (r.states, counted)

/-- Counts something so many times. -/
def times (count : Counting Unit) : Nat → Counting Unit
  | 0 => pure ()
  | n + 1 => do
    count
    times count n

/-! ### Sets -/

/-- A place for numbers in a table of the given size. -/
def placeIn (size : Nat) (ns : List Nat) : Nat :=
  (ns.foldl (fun (h : UInt64) n => (h ^^^ n.toUInt64) * 1099511628211)
    14695981039346656037).toNat % size

/-- The way on from a state for a range of bytes. -/
structure Way where
  range : Nat × Nat
  next : Nat
deriving DecidableEq

/-- States that are remembered by their ways on, one at each place of a table. -/
abbrev KnownStates := Std.HashMap Nat (List Way × Nat)

/-- Counts a state, unless one with the same ways on is remembered. -/
def knownOrNew (place bytes : Nat) (ways : List Way) (known : KnownStates) :
    Counting (Nat × KnownStates) :=
  match known[place]?.filter (·.1 = ways) with
  | some (_, id) => pure (id, known)
  | none => do
    let id ← state bytes
    return (id, known.insert place (ways, id))

/-- Counts the states for pieces of so many bytes or fewer, each after those it leads to; `stop` is
the state at the end. -/
def countForward (stop : Nat) : Nat → List (List (Nat × Nat)) → KnownStates →
    Counting (Nat × KnownStates)
  | 0, _, known => pure (stop, known)
  | bytes + 1, pieces, known => do
    let groups := pieces.splitBy fun p q => p.head? == q.head?
    let (ways, known) ← groups.foldlM (fun (ways, known) group => do
      let (next, known) ← countForward stop bytes ((group.map List.tail).filter (· ≠ [])) known
      return (ways ++ [⟨(group.flatten.head?).getD (0, 0), next⟩], known)) ([], known)
    if ways.isEmpty then return (stop, known)
    let place := placeIn 10000 (ways.flatMap fun w => [w.range.1, w.range.2, w.next])
    knownOrNew place (8 * ways.length) ways known

/-- Counts the states for a piece, each after the one it leads to. -/
def countBackward (stop : Nat) (piece : List (Nat × Nat)) (known : KnownStates) :
    Counting KnownStates :=
  (·.2) <$> piece.foldlM (fun (next, known) range =>
    knownOrNew (placeIn 1000 [next, range.1, range.2]) 0 [⟨range, next⟩] known) (stop, known)

/-- Counts the states for a set. -/
def countSet (backward : Bool) (pieces : List (List (Nat × Nat))) : Counting Unit := do
  if pieces.all (·.length == 1) then
    discard (state 0)
    discard (state (8 * pieces.length))
  else if backward then
    discard (state 0)
    let stop ← state 0
    discard <| pieces.foldlM (fun known piece => do
      let known ← countBackward stop piece known
      more 4
      return known) ∅
  else
    let stop ← state 0
    discard (countForward stop 4 pieces ∅)

/-! ### Alternatives that are texts -/

/-- Counts the states for one of several texts of so many bytes or fewer. Texts that start alike
share states, as long as no text between them ends there. -/
def countTexts : Nat → List (List Nat) → Counting Unit
  | 0, _ => pure ()
  | bytes + 1, texts => do
    let ends := texts.takeWhile (·.isEmpty)
    let chunks := Text.pieces List.isEmpty (ends.take 1 ++ texts.drop ends.length)
    for chunk in chunks do
      let firsts := (chunk.filterMap (·.head?)).eraseDups
      for first in firsts do
        let rests := (chunk.filter (·.head? = some first)).map List.tail
        if rests.any (· ≠ []) then countTexts bytes rests
      if firsts ≠ [] then discard (state (if firsts.length = 1 then 0 else 8 * firsts.length))
    discard (state (4 * (chunks.length - 1 + (chunks.filter (· ≠ [])).length)))

/-! ### Shapes -/

namespace Shape

/-- The bytes of a text. -/
def bytes? : Shape → Option (List Nat)
  | text cs => some (cs.flatMap fun c => bytesOf c.toNat)
  | _ => none

/-- The bytes of the branches of an alternative, if all of them are texts. -/
def texts? : Shape → Option (List (List Nat))
  | alt a b => do return (← a.bytes?) :: (← b.texts?)
  | a => do return [← a.bytes?]

/-- Counts the states for a shape, `inside` if it stands for further branches of an alternative. -/
def count (backward inside : Bool) : Shape → Counting Unit
  | empty | never | place _ => discard (state 0)
  | text cs => times (discard (state 0)) (cs.flatMap fun c => bytesOf c.toNat).length
  | set _ pieces => countSet backward pieces
  | seq a b =>
    if backward then do
      b.count backward false
      a.count backward false
    else do
      a.count backward false
      b.count backward false
  | alt a b => do
    match inside, (alt a b).texts? with
    | false, some texts =>
      discard (state 0)
      let texts := if backward then texts.map List.reverse else texts
      countTexts ((texts.map List.length).foldl max 0 + 1) texts
    | _, _ =>
      if !inside then
        discard (state (4 * (alt a b).branches.length))
        discard (state 0)
      a.count backward true
      b.count backward true
  | group _ a => do
    if !backward then discard (state 0)
    a.count backward false
    if !backward then discard (state 0)
  | rounds least most _ a => do
    let round := a.count backward false
    match least, most with
    | 0, some 1 =>
      round
      discard (state 8)
      discard (state 0)
    | 0, none =>
      round
      discard (state 8)
      if a.canBeEmpty then
        discard (state 8)
        discard (state 0)
    | least + 1, none =>
      times round (least + 1)
      discard (state 8)
    | least, some most =>
      if least = 0 then discard (state 0)
      times round least
      if least < most then
        discard (state 0)
        times (discard (state 8) *> round) (most - least)

/-- Counts an automaton: a state in front and one at the end, and forward the two for the whole
match. -/
def countAll (backward : Bool) (a : Shape) : Counting Unit := do
  discard (state 0)
  (group 0 a).count backward false
  discard (state 0)

end Shape

/-- Whether the automata of a pattern stay within the limit. -/
def fits (e : Expr) : Bool :=
  let a := Shape.ofExpr e
  ((a.countAll true).run {}).isSome && ((a.countAll false).run {}).isSome

/-- The pattern that is written by these characters. -/
def read (cs : List Char) : Except PatternFault Pattern := do
  let e ← Expr.read cs
  if fits e then return e.toPattern else throw .tooLarge

end CommandConsole.Pattern

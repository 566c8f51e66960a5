import Std.Data.HashSet.Basic
import CommandConsole.Text.WordClass

/-!
# CommandConsole.Pattern — patterns and how they match

A pattern describes texts. Where it leaves a choice, the possibilities are tried in order of
preference and the first that lets the whole pattern match counts: the first branch of an
alternative, one more round of a greedy repetition, the end of a lazy one. Of several places where a
match can start, the leftmost counts.

* `run`: matching from a cursor, given what has to follow.
* `captures?`: the texts of the groups of the first match in a line.
* `find?_eq_search`: a pattern that starts at the start of the text need not be tried elsewhere.

Every choice has a mark of its own, and what follows a choice hangs on its mark alone. So a choice
that has been tried at some place and has led to no match leads to none when it comes up there
again: the search remembers what it has tried, and takes time in proportion to the lengths of the
pattern and the line. For the same reason a round of a repetition that reads nothing ends it.
-/

namespace CommandConsole

/-- A condition on the word characters around a place. -/
inductive Pattern.WordPlace where
  /-- A word starts or ends here, or neither does. -/
  | boundary | noBoundary
  | start | stop
  /-- No word character stands in front of this place, or none behind it. -/
  | noneBefore | noneAfter
deriving DecidableEq, Repr

/-- A condition on a place in a text. -/
inductive Pattern.Anchor where
  | textStart | textEnd
  /-- A line starts or ends here. With `returns`, carriage returns end lines too, alone or with the
  line feed behind them. -/
  | lineStart (returns : Bool) | lineEnd (returns : Bool)
  /-- With `ascii`, only ASCII characters count as word characters. -/
  | word (ascii : Bool) (place : Pattern.WordPlace)
deriving DecidableEq, Repr

/-- A pattern. -/
inductive Pattern where
  /-- The empty text. -/
  | empty
  /-- One character of a set. -/
  | one (set : CharSet)
  | anchor (a : Pattern.Anchor)
  | seq (a b : Pattern)
  /-- Either of two patterns, the first preferred. -/
  | alt (mark : Nat) (a b : Pattern)
  /-- Any number of rounds; many preferred if `greedy`. -/
  | many (greedy : Bool) (mark : Nat) (a : Pattern)
  /-- One round or more; many preferred if `greedy`. -/
  | atLeastOne (greedy : Bool) (mark : Nat) (a : Pattern)
  /-- A group that captures the text it matches. -/
  | group (index : Nat) (a : Pattern)
deriving DecidableEq, Repr

namespace Pattern

/-- The text that a group has matched: the first `length` characters of `start`. -/
structure Capture where
  index : Nat
  start : List Char
  length : Nat

/-- The captured text. -/
def Capture.text (c : Capture) : String := String.ofList (c.start.take c.length)

/-- A place in a text, with what the match has captured on the way to it. -/
structure Cursor where
  /-- The character in front of this place. -/
  before : Option Char := none
  rest : List Char
  /-- How many characters lie in front of this place. -/
  position : Nat := 0
  /-- Newest first. -/
  captures : List Capture := []

namespace Cursor

/-- The cursor after its next character. -/
def advance (s : Cursor) (c : Char) (rest : List Char) : Cursor :=
  { s with before := some c, rest, position := s.position + 1 }

/-- Captures what lies between an earlier cursor and this one. -/
def capture (s : Cursor) (index : Nat) (from_ : Cursor) : Cursor :=
  { s with captures := ⟨index, from_.rest, s.position - from_.position⟩ :: s.captures }

/-- The text of a group, empty if it took no part in the match. -/
def captured (s : Cursor) (index : Nat) : String :=
  match s.captures.find? (·.index == index) with
  | some c => c.text
  | none => ""

/-- Whether a character stands in front of this place. -/
def follows (s : Cursor) (c : Char) : Bool := s.before == some c

/-- Whether a character stands behind this place. -/
def precedes (s : Cursor) (c : Char) : Bool := s.rest.head? == some c

end Cursor

/-- The characters of words. -/
def isWordChar (ascii : Bool) (c : Char) : Bool :=
  if ascii then CharSet.asciiWord.contains c else Text.isWord c

/-- Whether a condition on the word characters around a place holds. -/
def WordPlace.holds (before after : Bool) : WordPlace → Bool
  | boundary => before != after
  | noBoundary => before == after
  | start => !before && after
  | stop => before && !after
  | noneBefore => !before
  | noneAfter => !after

/-- Whether a condition holds at a place. -/
def Anchor.holds (s : Cursor) : Anchor → Bool
  | textStart => s.position == 0
  | textEnd => s.rest.isEmpty
  | lineStart returns =>
    s.position == 0 || s.follows '\n' || returns && s.follows '\r' && !s.precedes '\n'
  | lineEnd returns =>
    s.rest.isEmpty || returns && s.precedes '\r' ||
      s.precedes '\n' && !(returns && s.follows '\r')
  | word ascii place =>
    place.holds (s.before.any (isWordChar ascii)) (s.rest.head?.any (isWordChar ascii))

/-! ### Searching -/

/-- The marks of the choices that have been tried, each with the position it was tried at. -/
abbrev Tried := Std.HashSet (Nat × Nat)

/-- A search for something that adds to what has been tried. -/
abbrev Search (α : Type) := Tried → Option α × Tried

namespace Search

variable {α : Type}

/-- Finds something at once. -/
def found (x : α) : Search α := fun tried => (some x, tried)

/-- Finds nothing. -/
def nothing : Search α := fun tried => (none, tried)

/-- Searches in two ways, the first preferred. -/
def first (a b : Search α) : Search α := fun tried =>
  match a tried with
  | (some x, tried) => (some x, tried)
  | (none, tried) => b tried

/-- Searches unless the choice has been tried at this position before. -/
def once (mark position : Nat) (a : Search α) : Search α := fun tried =>
  if tried.contains (mark, position) then (none, tried) else a (tried.insert (mark, position))

end Search

section Match

variable {α : Type}

/-- Up to so many rounds of a body, each of which reads something, and then what has to follow. -/
def rounds (greedy : Bool) (mark : Nat) (body : (Cursor → Search α) → Cursor → Search α)
    (next : Cursor → Search α) : Nat → Cursor → Search α
  | 0, s => .once mark s.position (next s)
  | n + 1, s =>
    let again (t : Cursor) : Search α :=
      if s.position < t.position then rounds greedy mark body next n t else .nothing
    .once mark s.position
      (if greedy then .first (body again s) (next s) else .first (next s) (body again s))

/-- Matches a pattern at a cursor, and then what has to follow. -/
def run : Pattern → (Cursor → Search α) → Cursor → Search α
  | empty, next, s => next s
  | one set, next, s =>
    match s.rest with
    | [] => .nothing
    | c :: rest => if set.contains c then next (s.advance c rest) else .nothing
  | anchor a, next, s => if a.holds s then next s else .nothing
  | seq a b, next, s => a.run (b.run next) s
  | alt mark a b, next, s => .once mark s.position (.first (a.run next s) (b.run next s))
  | many greedy mark a, next, s => rounds greedy mark a.run next s.rest.length s
  | atLeastOne greedy mark a, next, s =>
    a.run (fun t => rounds greedy mark a.run next t.rest.length t) s
  | group index a, next, s => a.run (fun t => next (t.capture index s)) s

end Match

/-- Matches a pattern at the leftmost place it can match at, from a given one on. -/
def search (p : Pattern) (before : Option Char) (position : Nat) : List Char → Search Cursor
  | [] => p.run .found { before, rest := [], position }
  | c :: cs =>
    .first (p.run .found { before, rest := c :: cs, position })
      (p.search (some c) (position + 1) cs)

/-- Whether a pattern can match at the start of a text only. -/
def startsText : Pattern → Bool
  | anchor .textStart => true
  | seq a _ => a.startsText
  | alt _ a b => a.startsText && b.startsText
  | group _ a | atLeastOne _ _ a => a.startsText
  | _ => false

theorem run_of_startsText {α : Type} {p : Pattern} (h : p.startsText = true)
    (next : Cursor → Search α) (s : Cursor) (hs : s.position ≠ 0) (tried : Tried) :
    (p.run next s tried).1 = none := by
  induction p generalizing next s tried with
  | anchor a => cases a <;> simp_all [startsText, run, Anchor.holds, Search.nothing]
  | seq a b iha => exact iha h _ s hs tried
  | alt mark a b iha ihb =>
    simp only [startsText, Bool.and_eq_true] at h
    simp only [run, Search.once]
    split
    · rfl
    · simp only [Search.first]
      split
      · next hfound =>
        have := iha h.1 next s hs (tried.insert (mark, s.position))
        simp [hfound] at this
      · exact ihb h.2 next s hs _
  | atLeastOne greedy mark a ih => exact ih h _ s hs tried
  | group index a ih => exact ih h _ s hs tried
  | _ => simp [startsText] at h

theorem search_of_startsText {p : Pattern} (h : p.startsText = true)
    {before : Option Char} {position : Nat} (hp : position ≠ 0) (cs : List Char) (tried : Tried) :
    (p.search before position cs tried).1 = none := by
  induction cs generalizing before position tried with
  | nil => exact run_of_startsText h _ _ hp tried
  | cons c cs ih =>
    simp only [search, Search.first]
    split
    · next hfound =>
      have := run_of_startsText h Search.found { before, rest := c :: cs, position } hp tried
      simp [hfound] at this
    · exact ih (Nat.succ_ne_zero position) _

/-- The cursor at the end of the first match in a line. -/
def find? (p : Pattern) (line : String) : Option Cursor :=
  if p.startsText then (p.run .found { rest := line.toList } ∅).1
  else (p.search none 0 line.toList ∅).1

/-- Looking only at the start misses nothing. -/
theorem find?_eq_search (p : Pattern) (line : String) :
    p.find? line = (p.search none 0 line.toList ∅).1 := by
  unfold find?
  split
  · next h =>
    cases line.toList with
    | nil => rfl
    | cons c cs =>
      simp only [search, Search.first]
      split
      · next hfound => rw [hfound]
      · next hnone => rw [hnone, search_of_startsText h (Nat.succ_ne_zero 0) cs]
  · rfl

/-- The number of capture groups: the greatest index of one. -/
def arity : Pattern → Nat
  | empty | one _ | anchor _ => 0
  | seq a b | alt _ a b => max a.arity b.arity
  | many _ _ a | atLeastOne _ _ a => a.arity
  | group index a => max index a.arity

/-- The texts of the groups of the first match in a line. -/
def captures? (p : Pattern) (line : String) : Option (List String) :=
  (p.find? line).map fun s => (List.range p.arity).map fun i => s.captured (i + 1)

theorem length_of_captures? {p : Pattern} {line : String} {texts : List String}
    (h : p.captures? line = some texts) : texts.length = p.arity := by
  obtain ⟨s, _, rfl⟩ := Option.map_eq_some_iff.1 h
  simp

end Pattern

end CommandConsole

import CommandConsole.Pattern.Escape

/-!
# CommandConsole.Pattern.CharClass — classes in brackets

A class in brackets lists characters, ranges, named sets and further classes. Operators between
lists take what is in both, in the first only, or in one of the two; they bind alike and group to
the left. A caret in front takes what is not in the class.

A class is read one character after the other; the classes whose brackets are still open are kept
in a list, the innermost first.

* `ClassReader.step`: reads one character of a class.
-/

namespace CommandConsole.Pattern

/-- What an operator in a class takes of two sets. -/
inductive ClassOperator where
  | both | firstOnly | oneOnly
deriving DecidableEq, Repr

/-- An item of a class. -/
inductive ClassItem where
  | char (c : Char)
  | range (first last : Char)
  | kind (negated : Bool) (k : CharKind)
  | property (negated : Bool) (s : CharSet)
  /-- A set of ASCII characters that is known by name. -/
  | named (negated : Bool) (s : CharSet)
deriving DecidableEq, Repr

/-- A class as it is written. -/
inductive ClassExpr where
  | empty
  | item (i : ClassItem)
  | union (a b : ClassExpr)
  | bracket (negated : Bool) (a : ClassExpr)
  | combine (op : ClassOperator) (a b : ClassExpr)
deriving DecidableEq, Repr

/-- A part of a class and how deeply classes, lists and operators are nested in it. -/
structure ClassPart where
  expr : ClassExpr
  depth : Nat := 0
deriving DecidableEq, Repr

/-- A list of items of a class. -/
structure ClassItems where
  expr : ClassExpr := .empty
  count : Nat := 0
  /-- The greatest depth of an item. -/
  depth : Nat := 0

namespace ClassItems

/-- Adds a part. -/
def add (items : ClassItems) (p : ClassPart) : ClassItems where
  expr := if items.count = 0 then p.expr else .union items.expr p.expr
  count := items.count + 1
  depth := max items.depth p.depth

/-- The list as a part of the class. -/
def part (items : ClassItems) : ClassPart :=
  ⟨items.expr, if items.count < 2 then items.depth else items.depth + 1⟩

end ClassItems

/-- An operator that waits for its second operand. -/
structure PendingOperator where
  op : ClassOperator
  first : ClassPart

/-- Gives a list of items to the operator that waits for it, if there is one. -/
def operand (pending : Option PendingOperator) (items : ClassItems) : ClassPart :=
  match pending with
  | none => items.part
  | some ⟨op, first⟩ =>
    ⟨.combine op first.expr items.part.expr, max first.depth items.part.depth + 1⟩

/-- A class whose bracket is still open. -/
structure OpenClass where
  negated : Bool := false
  pending : Option PendingOperator := none
  items : ClassItems := {}

namespace OpenClass

/-- Adds a part. -/
def add (o : OpenClass) (p : ClassPart) : OpenClass := { o with items := o.items.add p }

/-- Adds an item. -/
def addItem (o : OpenClass) (i : ClassItem) : OpenClass := o.add { expr := .item i }

/-- Goes on behind an operator. -/
def operator (o : OpenClass) (op : ClassOperator) : OpenClass :=
  { o with pending := some ⟨op, operand o.pending o.items⟩, items := {} }

/-- The class with its bracket closed. -/
def close (o : OpenClass) : ClassPart :=
  let inner := operand o.pending o.items
  ⟨.bracket o.negated inner.expr, inner.depth + 1⟩

end OpenClass

/-- The sets of ASCII characters that are known by name. -/
def namedSets : List (String × CharSet) :=
  [("alnum", CharSet.asciiLetter.union .asciiDigit),
    ("alpha", .asciiLetter),
    ("ascii", .ascii),
    ("blank", .ofList ['\t', ' ']),
    ("cntrl", (CharSet.range '\x00' '\x1f').union (.only '\x7f')),
    ("digit", .asciiDigit),
    ("graph", .range '!' '~'),
    ("lower", .range 'a' 'z'),
    ("print", .range ' ' '~'),
    ("punct", (CharSet.range '!' '~').diff (CharSet.asciiLetter.union .asciiDigit)),
    ("space", .asciiBlank),
    ("upper", .range 'A' 'Z'),
    ("word", .asciiWord),
    ("xdigit", .unions [.asciiDigit, .range 'A' 'F', .range 'a' 'f'])]

/-- How the sets that are known by name are written behind a bracket. -/
def namedItems : List (List Char × ClassItem) :=
  namedSets.flatMap fun (name, s) =>
    [((":" ++ name ++ ":]").toList, .named false s), ((":^" ++ name ++ ":]").toList, .named true s)]

/-- The item of an atom that stands alone. -/
def Atom.item : Atom → Except PatternFault ClassItem
  | char c _ => .ok (.char c)
  | kind negated k => .ok (.kind negated k)
  | property negated s => .ok (.property negated s)
  | place _ => .error .placeInClass

/-- The item of a range between two atoms. -/
def Atom.rangeTo : Atom → Atom → Except PatternFault ClassItem
  | char first _, char last _ =>
    if first ≤ last then .ok (.range first last) else .error .rangeOutOfOrder
  | place _, _ | _, place _ => .error .placeInClass
  | _, _ => .error .rangeOfSets

/-- What is known of the character behind a dash while blanks and comments are passed over: that
character tells whether the dash makes a range. The first character of a comment that is not blank
is taken for it, and only the first sign of a comment is known as such. -/
inductive Glance where
  /-- Nothing stands behind the dash as yet, or blanks only. -/
  | nothing | blanks
  /-- The sign of a comment, and blanks. -/
  | comment
  | range | noRange
deriving DecidableEq, Repr

/-- What a bracket or a dash behind a dash, in plain view or in a comment, tells of it. -/
def Glance.ofChar (c : Char) : Glance := if c = ']' ∨ c = '-' then noRange else range

/-- Where the reader of a class is. -/
inductive ClassPlace where
  /-- Behind the bracket, where a caret may stand. -/
  | opened
  /-- Where dashes and a closing bracket stand for themselves. -/
  | front
  /-- Where an item may start. -/
  | items
  /-- Behind a sign that makes an operator if it stands there twice. -/
  | sign (c : Char)
  /-- Behind an atom that may start a range. -/
  | behind (a : Atom)
  /-- Behind an atom and a dash. -/
  | dash (a : Atom) (g : Glance)
  /-- In an escape, which may end a range. -/
  | escape (first : Option Atom) (e : Escape)
deriving DecidableEq, Repr

/-- The operator of a doubled sign. -/
def ClassOperator.ofSign? : Char → Option ClassOperator
  | '&' => some both
  | '-' => some firstOnly
  | '~' => some oneOnly
  | _ => none

/-- A class as far as it is read. -/
structure ClassReader where
  current : OpenClass := {}
  around : List OpenClass := []
  place : ClassPlace := .opened
  /-- What stands behind the last bracket, its last character first, if it may become the name of a
  set. The bracket may turn out to open no class then. -/
  name : Option (List Char) := none

namespace ClassReader

variable (r : ClassReader)

/-- What a character of a class leads to: more of it, or the whole class. -/
abbrev Result := Except PatternFault (ClassReader ⊕ ClassPart)

/-- Goes on at another place. -/
def goTo (p : ClassPlace) : Result := .ok (.inl { r with place := p })

/-- Adds an item and goes on behind it. -/
def addItem (i : ClassItem) : ClassReader :=
  { r with current := r.current.addItem i, place := .items }

/-- Closes the innermost class. -/
def close : Result :=
  match r.around with
  | [] => .ok (.inr r.current.close)
  | o :: around => .ok (.inl
    { current := o.add r.current.close, around, place := .items })

/-- Reads a character where an item may start. -/
def item (c : Char) : Result :=
  match c with
  | ']' => r.close
  | '[' => .ok (.inl { around := r.current :: r.around, name := some [] })
  | '\\' => r.goTo (.escape none .start)
  | c => r.goTo (if (ClassOperator.ofSign? c).isSome then .sign c else .behind (.char c))

/-- Reads a character in front of the items. -/
def front (c : Char) : Result :=
  if c = '-' then .ok (.inl { r.addItem (.char c) with place := .front })
  else if c = ']' ∧ r.current.items.count = 0 then .ok (.inl (r.addItem (.char c)))
  else r.item c

/-- Reads a character behind an atom that may start a range. -/
def behind (a : Atom) (c : Char) : Result :=
  if c = '-' then r.goTo (.dash a .nothing)
  else do (r.addItem (← a.item)).item c

/-- Reads the last character of a range. -/
def rangeEnd (a : Atom) (c : Char) : Result :=
  if c = '\\' then r.goTo (.escape (some a) .start)
  else do return .inl (r.addItem (← a.rangeTo (.char c)))

/-- Reads a character behind a sign that may be doubled. -/
def sign (first c : Char) : Result :=
  match ClassOperator.ofSign? first with
  | some op =>
    if c = first then .ok (.inl { r with current := r.current.operator op, place := .items })
    else r.behind (.char first) c
  | none => r.behind (.char first) c

/-- Reads a character behind an atom and a dash. Without a range, the dash is read once more where
an item may start. -/
def dash (a : Atom) (g : Glance) (c : Char) : Result :=
  match g with
  | .range => r.rangeEnd a c
  | .noRange => do (r.addItem (← a.item)).behind (.char '-') c
  | _ =>
    if Glance.ofChar c = .range then r.rangeEnd a c
    else do
      let r := r.addItem (← a.item)
      if g = .nothing then r.sign '-' c else r.behind (.char '-') c

/-- Reads a character of an escape. -/
def escape (first : Option Atom) (e : Escape) (c : Char) : Result := do
  match ← e.step c with
  | .inl e => r.goTo (.escape first e)
  | .inr a =>
    match first with
    | none => r.goTo (.behind a)
    | some first => return .inl (r.addItem (← first.rangeTo a))

/-- Reads a character, whatever stands in front of it. -/
def read (c : Char) : Result :=
  match r.place with
  | .opened =>
    if c = '^' then .ok (.inl
      { r with current := { r.current with negated := true }, place := .front })
    else r.front c
  | .front => r.front c
  | .items => r.item c
  | .sign first => r.sign first c
  | .behind a => r.behind a c
  | .dash a g => r.dash a g c
  | .escape first e => r.escape first e c

/-- Reads a character. A name that is complete stands for its set in the class around it. -/
def step (c : Char) : Result :=
  let name := r.name.map (c :: ·)
  match namedItems.find? fun p => name = some p.1.reverse, r.around with
  | some (_, i), o :: around => .ok (.inl { current := o.addItem i, around, place := .items })
  | _, _ =>
    read { r with name := name.filter fun read => namedItems.any (read.reverse.isPrefixOf ·.1) } c

/-- Whether blanks and comments are passed over here where they count for nothing. -/
def spaced : Bool :=
  match r.place with
  | .escape _ e => e.spaced
  | _ => true

/-- Passes over a character of a blank or a comment. -/
def pass (c : Char) : ClassReader :=
  { r with
    name := none
    place := match r.place with
      | .sign first => .behind (.char first)
      | .dash a .comment => .dash a (if Text.isBlank c then .comment else .ofChar c)
      | .dash a .nothing | .dash a .blanks => .dash a (if c = '#' then .comment else .blanks)
      | p => p }

end ClassReader

end CommandConsole.Pattern

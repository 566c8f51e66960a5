import CommandConsole.Pattern.Expr
import CommandConsole.Pattern.Token
import CommandConsole.Text.CaseFolding

/-!
# CommandConsole.Pattern.Flags — what the parts of a pattern stand for under its flags

Without the Unicode flag a pattern is about bytes. As it is matched against texts, it may stand for
ASCII characters in its sets then, but for no single bytes of other characters.

* `Flags.change`: the flags after changes.
* `Flags.atom`, `Flags.dot`, `Flags.bracket`: the expressions of characters, escapes, the dot and
  classes.
-/

namespace CommandConsole.Pattern

/-- The flags in force, apart from the one for blanks and comments. -/
structure Flags where
  ignoreCase : Bool := false
  multiLine : Bool := false
  dotAll : Bool := false
  swapGreed : Bool := false
  unicode : Bool := true
  crlf : Bool := false
deriving DecidableEq, Repr

namespace Flags

variable (f : Flags)

/-- The flags with a new value of one. -/
def set : Flag × Bool → Flags
  | (.ignoreCase, value) => { f with ignoreCase := value }
  | (.multiLine, value) => { f with multiLine := value }
  | (.dotAll, value) => { f with dotAll := value }
  | (.swapGreed, value) => { f with swapGreed := value }
  | (.unicode, value) => { f with unicode := value }
  | (.crlf, value) => { f with crlf := value }
  | (.verbose, _) => f

/-- The flags after changes. -/
def change (c : FlagChange) : Flags := c.foldl set f

/-- A set with what differs from it in case only, if case is ignored. -/
def fold (s : CharSet) : CharSet :=
  if !f.ignoreCase then s else if f.unicode then s.anyCase else s.anyAsciiCase

/-- A set, or the characters outside it. -/
def negate (negated : Bool) (s : CharSet) : Except PatternFault CharSet :=
  if !negated then .ok s else if f.unicode then .ok s.complement else .error .notUtf8

/-- The characters of a kind. -/
def kind (k : CharKind) : CharSet :=
  match k, f.unicode with
  | .digit, true => Text.decimalDigits
  | .blank, true => Text.blanks
  | .word, true => Text.wordChars
  | .digit, false => .asciiDigit
  | .blank, false => .asciiBlank
  | .word, false => .asciiWord

/-- The characters of an item of a class. -/
def classItem : ClassItem → Except PatternFault CharSet
  | .char c => if f.unicode || c.toNat < 128 then .ok (.only c) else .error .notUnicode
  | .range first last =>
    if f.unicode || last.toNat < 128 then .ok (.range first last) else .error .notUnicode
  | .kind negated k => f.negate negated (f.kind k)
  | .property negated s =>
    if f.unicode then f.negate negated (f.fold s) else .error .notUnicode
  | .named negated s => f.negate negated (f.fold s)

/-- The characters in a class. -/
def classSet : ClassExpr → Except PatternFault CharSet
  | .empty => .ok .none
  | .item i => f.classItem i
  | .union a b => do return (← classSet a).union (← classSet b)
  | .bracket negated a => do f.negate negated (f.fold (← classSet a))
  | .combine op a b => do
    let s := f.fold (← classSet a)
    let t := f.fold (← classSet b)
    return match op with
      | .both => s.inter t
      | .firstOnly => s.diff t
      | .oneOnly => s.symmDiff t

/-- The condition on a place. -/
def anchor : Place → Anchor
  | .lineStart => if f.multiLine then .lineStart f.crlf else .textStart
  | .lineEnd => if f.multiLine then .lineEnd f.crlf else .textEnd
  | .textStart => .textStart
  | .textEnd => .textEnd
  | .word place => .word (!f.unicode) place

/-- The expression of an atom. -/
def atom : Atom → Except PatternFault Expr
  | .char c byte =>
    if f.unicode || !byte || c.toNat < 128 then .ok (.one (f.fold (.only c))) else .error .notUtf8
  | .kind negated k => .one <$> f.classItem (.kind negated k)
  | .property negated s => .one <$> f.classItem (.property negated s)
  | .place p => .ok (.anchor (f.anchor p))

/-- The expression of the dot. -/
def dot : Except PatternFault Expr :=
  if !f.unicode then .error .notUtf8
  else if f.dotAll then .ok (.one .all)
  else if f.crlf then .ok (.one (CharSet.ofList ['\n', '\r']).complement)
  else .ok (.one .notLineBreak)

/-- The expression of a class. -/
def bracket (c : ClassExpr) : Except PatternFault Expr := .one <$> f.classSet c

end Flags

end CommandConsole.Pattern

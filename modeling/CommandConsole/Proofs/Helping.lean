import CommandConsole.Registry
import CommandConsole.Proofs.Written

/-!
# CommandConsole.Proofs.Helping — the pattern of requests for help

The requests for help on a command can be written as one pattern: the name, a blank and a question
mark, or `help`, a blank and the name, each in a group between the ends of the line. In the name,
signs that have a meaning in patterns are marked with a backslash. Whatever the name is, the pattern
can be read, and it matches the requests and no other line.

* `Pattern.escaped`, `Command.helpPattern`: the written pattern.
* `Pattern.Row`: part of a written pattern that reads one character after the other.
* `Pattern.reads_row`: such a row between the ends of a line, matched.
* `Command.exists_helpPattern`: the pattern of a name.
-/

namespace CommandConsole

namespace Pattern

open Template

/-- The signs that have a meaning in written patterns. -/
def signs : List Char :=
  ['\\', '.', '+', '*', '?', '(', ')', '|', '[', ']', '{', '}', '^', '$', '#', '&', '-', '~']

/-- A character written so that it stands for itself. -/
def escapedChar (c : Char) : List Char := if c ∈ signs then ['\\', c] else [c]

/-- A text written so that it stands for itself. -/
def escaped (text : String) : String := String.ofList (text.toList.flatMap escapedChar)

theorem lexes_escapedChar (c : Char) : Lexes (escapedChar c) [.atom (.char c)] := by
  unfold escapedChar
  split
  · next hc =>
    simp only [signs, List.mem_cons, List.not_mem_nil, or_false] at hc
    intro around
    rcases hc with rfl | rfl | rfl | rfl | rfl | rfl | rfl | rfl | rfl | rfl | rfl | rfl | rfl |
      rfl | rfl | rfl | rfl | rfl <;> rfl
  · next hc =>
    refine lexes_one ?_ fun _ => rfl
    unfold Mode.start
    split <;> first | rfl | exact absurd (by decide) hc

/-! ### Rows of characters -/

/-- Part of a written pattern that reads one character of each of these sets in turn. -/
def Row (cs : List Char) (sets : List CharSet) : Prop :=
  ∃ ts items, Lexes cs ts ∧ Adds ts (fun _ => items) 0 ∧
    items.map Item.expr = sets.map Expr.one ∧ ∀ item ∈ items, item.depth ≤ 1

theorem row_nil : Row [] [] := ⟨[], [], lexes_nil, adds_nil, rfl, List.forall_mem_nil _⟩

theorem Row.append {cs ds : List Char} {sets sets' : List CharSet} (h : Row cs sets)
    (h' : Row ds sets') : Row (cs ++ ds) (sets ++ sets') := by
  obtain ⟨ts, items, hlex, hadd, hexprs, hdepth⟩ := h
  obtain ⟨us, items', hlex', hadd', hexprs', hdepth'⟩ := h'
  refine ⟨ts ++ us, items ++ items', hlex.append hlex', hadd.append hadd', ?_,
    List.forall_mem_append.mpr ⟨hdepth, hdepth'⟩⟩
  rw [List.map_append, List.map_append, hexprs, hexprs']

theorem row_char {c : Char} {cs : List Char} (h : Lexes cs [.atom (.char c)]) :
    Row cs [.only c] :=
  ⟨_, _, h, adds_char c, rfl, by simp⟩

theorem row_escaped (cs : List Char) : Row (cs.flatMap escapedChar) (cs.map .only) := by
  induction cs with
  | nil => exact row_nil
  | cons c cs ih => exact (row_char (lexes_escapedChar c)).append ih

/-- A token for a character of a set. -/
theorem row_one {cs : List Char} {t : Token} {set : CharSet} {depth : Nat} (h : Lexes cs [t])
    (ht : ∀ r : ReaderState, r.branches.flags = {} → r.step t = .ok (r.add ⟨.one set, depth⟩))
    (hdepth : depth ≤ 1) : Row cs [set] := by
  refine ⟨[t], [⟨.one set, depth⟩], h, fun r hr => ⟨true, ?_⟩, rfl, by simpa using hdepth⟩
  rw [List.foldlM_cons, ht r hr]
  rfl

/-- The escape that stands for the blanks. -/
theorem row_blank : Row ['\\', 's'] [Text.blanks] := by
  refine row_one (t := .atom (.kind false .blank)) (fun _ => rfl) (fun r hr => ?_) (Nat.zero_le 1)
  show r.addExpr 0 (r.branches.flags.atom (.kind false .blank)) = _
  rw [hr]
  rfl

/-- A question mark in brackets. -/
theorem row_question : Row ['[', '?', ']'] [.only '?'] := by
  refine row_one (t := .bracket ⟨.bracket false (.item (.char '?')), 1⟩) (fun _ => rfl)
    (fun r hr => ?_) (Nat.le_refl 1)
  show r.addExpr 1 (r.branches.flags.bracket (.bracket false (.item (.char '?')))) = _
  rw [hr]
  rfl

/-! ### Rows between the ends of a line -/

/-- Characters of these sets in turn, from the start to the end of a line. -/
def anchored (sets : List CharSet) : Expr :=
  .sequence (.anchor .textStart :: (sets.map Expr.one ++ [.anchor .textEnd]))

theorem anchored_eq (sets : List CharSet) : anchored sets =
    .seq (.anchor .textStart) (.sequence (sets.map Expr.one ++ [.anchor .textEnd])) :=
  sequence_concat _ _ _

/-- A row between the ends of a line, as a group, is read as one item. -/
theorem Row.exists_group {cs : List Char} {sets : List CharSet} (h : Row cs sets) :
    ∃ ts depth, Lexes ('(' :: '^' :: (cs ++ ['$', ')'])) ts ∧ depth ≤ 3 ∧
      Adds ts (fun i => [⟨.group (i + 1) (anchored sets), depth⟩]) 1 := by
  obtain ⟨ts, items, hlex, hadd, hexprs, hdepth⟩ := h
  let first : Item := { expr := .anchor .textStart }
  let last : Item := { expr := .anchor .textEnd }
  have hstart : Lexes ('(' :: '^' :: (cs ++ ['$', ')']))
      (.start (.capturing none) :: .atom (.place .lineStart) ::
        (ts ++ [.atom (.place .lineEnd), .close])) := by
    intro around
    have hinner := hlex (false :: around)
    have hopen : Lexer.run { verbosity := { around } } ['(', '^'] =
        .ok ({ verbosity := { around := false :: around } },
          [.start (.capturing none), .atom (.place .lineStart)]) := rfl
    have hclose : Lexer.run { verbosity := { around := false :: around } } ['$', ')'] =
        .ok ({ verbosity := { around } }, [.atom (.place .lineEnd), .close]) := rfl
    have hbehind := Lexer.run_append_eq_ok_iff.mpr ⟨_, _, _, hinner, hclose, rfl⟩
    exact Lexer.run_append_eq_ok_iff.mpr ⟨_, _, _, hopen, hbehind, rfl⟩
  let inner : Item := .anyOf [.sequence (first :: (items ++ [last]))]
  have hexpr : inner.expr = anchored sets := by
    show Expr.sequence ((first :: (items ++ [last])).map Item.expr) = _
    rw [List.map_cons, List.map_append, hexprs]
    rfl
  have hitem (repeatable : Bool) (flags : Flags) : Branches.item
      { flags, items := last :: (items.reverse ++ [first]), repeatable } = inner := by
    show Item.anyOf [.sequence (last :: (items.reverse ++ [first])).reverse] = _
    rw [List.reverse_cons, List.reverse_append, List.reverse_reverse]
    rfl
  have hinner : inner.depth ≤ 2 := by
    have hall : ∀ item ∈ first :: (items ++ [last]), item.depth ≤ 1 := by
      simpa [first, last, or_imp, forall_and] using hdepth
    have hmax := foldl_max_le hall (Nat.zero_le 1)
    show max 0 (Item.sequence (first :: (items ++ [last]))).depth ≤ 2
    unfold Item.sequence
    dsimp only
    split <;> omega
  refine ⟨_, inner.depth + 1, hstart, Nat.succ_le_succ hinner, fun r hr => ⟨true, ?_⟩⟩
  let opened : ReaderState :=
    { branches := { flags := {} }
      groups := ⟨r.branches, some (r.captures + 1)⟩ :: r.groups
      captures := r.captures + 1
      names := r.names }
  obtain ⟨repeatable, hfold⟩ := hadd (opened.add first) rfl
  have hopen : [Token.start (.capturing none), .atom (.place .lineStart)].foldlM
      ReaderState.step r = .ok (opened.add first) := by
    obtain ⟨⟨flags, earlier, items, repeatable⟩, groups, captures, names⟩ := r
    cases hr
    rfl
  show ([Token.start (.capturing none), .atom (.place .lineStart)] ++
    (ts ++ [Token.atom (.place .lineEnd), .close])).foldlM ReaderState.step r = _
  rw [List.foldlM_append, hopen]
  show (ts ++ [Token.atom (.place .lineEnd), .close]).foldlM ReaderState.step
    (opened.add first) = _
  rw [List.foldlM_append, hfold, ← hexpr]
  -- the end of the line is added, and the group is closed
  show Except.ok { r with
    branches := r.branches.add ((Branches.item
      { items := last :: (items.reverse ++ [first]), repeatable := true }).group
        (some (r.captures + 1)))
    captures := r.captures + 1 + 0 } = _
  rw [hitem]
  rfl

/-- Two rows between the ends of a line, each in a group. -/
def eitherAnchored (sets sets' : List CharSet) : Expr :=
  .alt (.group 1 (anchored sets)) (.group 2 (anchored sets'))

theorem Row.read_either {cs ds : List Char} {sets sets' : List CharSet} (h : Row cs sets)
    (h' : Row ds sets') :
    Expr.read ('(' :: '^' :: (cs ++ ['$', ')']) ++ '|' :: '(' :: '^' :: (ds ++ ['$', ')'])) =
      .ok (eitherAnchored sets sets') := by
  obtain ⟨ts, depth, hlex, hdepth, hadd⟩ := h.exists_group
  obtain ⟨us, depth', hlex', hdepth', hadd'⟩ := h'.exists_group
  have hbar : Lexes ('|' :: '(' :: '^' :: (ds ++ ['$', ')'])) (.bar :: us) :=
    Lexes.append (fun _ => rfl : Lexes ['|'] [.bar]) hlex'
  let one : Item := ⟨.group 1 (anchored sets), depth⟩
  let two : Item := ⟨.group 2 (anchored sets'), depth'⟩
  obtain ⟨repeatable, hfold⟩ := hadd {} rfl
  obtain ⟨repeatable', hfold'⟩ :=
    hadd' { branches := { earlier := [.sequence [one]] }, captures := 1 } rfl
  have hall : (ts ++ .bar :: us).foldlM ReaderState.step {} = .ok
      { branches := { earlier := [.sequence [one]], items := [two], repeatable := repeatable' }
        captures := 2 } := by
    rw [List.foldlM_append, hfold]
    exact hfold'
  unfold Expr.read
  rw [(hlex.append hbar).tokens_eq]
  refine (Expr.ofTokens_of_foldlM hall rfl).trans (if_neg ?_)
  show ¬ 250 < max (max 0 (max 0 depth)) (max 0 depth') + 1
  omega

/-! ### Matching -/

theorem isSome_eq_of_rel {α β : Type} {R : α → β → Prop} {x : Option α} {y : Option β}
    (h : Option.Rel R x y) : x.isSome = y.isSome := by
  cases h <;> rfl

/-- A row up to the end of a line reads what its steps read, whatever is captured then. -/
theorem reads_row {follow : Cursor → Option Cursor} (hfollow : ∀ u, (follow u).isSome = true)
    (sets : List CharSet) (n : Nat) :
    Reads (((Expr.sequence (sets.map Expr.one ++ [.anchor .textEnd])).build n).1.attempt follow)
      (sets.map Step.one) fun _ _ _ => True := by
  induction sets with
  | nil =>
    intro s
    show Option.Rel _ (split? [] s.rest) (if s.rest.isEmpty then follow s else none)
    cases hr : s.rest with
    | nil =>
      obtain ⟨u, hu⟩ := Option.isSome_iff_exists.mp (hfollow s)
      rw [split?, List.isEmpty_nil, if_pos rfl, hu]
      exact .some trivial
    | cons c rest =>
      rw [split?]
      exact .none
  | cons set sets ih =>
    rw [List.map_cons, List.cons_append, sequence_concat]
    exact readsAs_one set (fun _ _ => trivial) ih

theorem ordered_row (sets : List CharSet) (n : Nat) :
    Ordered ((Expr.sequence (sets.map Expr.one ++ [.anchor .textEnd])).build n).1 n n ∧
      ((Expr.sequence (sets.map Expr.one ++ [.anchor .textEnd])).build n).2 = n := by
  induction sets with
  | nil => exact ⟨.anchor, rfl⟩
  | cons set sets ih =>
    rw [List.map_cons, List.cons_append, sequence_concat]
    exact ⟨.seq .one ih.1, ih.2⟩

/-- A line has a match if and only if one of the two rows reads it. -/
theorem isSome_find?_either (sets sets' : List CharSet) (line : String) :
    ((eitherAnchored sets sets').toPattern.find? line).isSome =
      (accepts (sets.map Step.one) line || accepts (sets'.map Step.one) line) := by
  have hbuild : (eitherAnchored sets sets').toPattern = .alt 0
      (.group 1 (.seq (.anchor .textStart)
        ((Expr.sequence (sets.map Expr.one ++ [.anchor .textEnd])).build 1).1))
      (.group 2 (.seq (.anchor .textStart)
        ((Expr.sequence (sets'.map Expr.one ++ [.anchor .textEnd])).build 1).1)) := by
    unfold eitherAnchored
    rw [anchored_eq, anchored_eq]
    show Pattern.alt 0 _ (.group 2 (.seq _ (Expr.build _ (Expr.build _ 1).2).1)) = _
    rw [(ordered_row sets 1).2]
  obtain ⟨hordered, -⟩ := ordered_row sets 1
  obtain ⟨hordered', -⟩ := ordered_row sets' 1
  have hwhole : Ordered (eitherAnchored sets sets').toPattern 0 1 := by
    rw [hbuild]
    exact .alt (.group (.seq .anchor hordered)) (.group (.seq .anchor hordered'))
  have hstarts : (eitherAnchored sets sets').toPattern.startsText = true := by
    rw [hbuild]
    rfl
  rw [hwhole.find?_eq hstarts, hbuild]
  have hrow (sets : List CharSet) (index : Nat) :
      ((Pattern.group index (.seq (.anchor .textStart)
        ((Expr.sequence (sets.map Expr.one ++ [.anchor .textEnd])).build 1).1)).attempt some
          { rest := line.toList }).isSome = accepts (sets.map Step.one) line := by
    unfold accepts
    rw [splitLine?_eq_split?]
    exact (isSome_eq_of_rel (reads_row (fun _ => rfl) sets 1 { rest := line.toList })).symm
  show (Option.or _ _).isSome = _
  rw [Option.isSome_or, hrow, hrow]

end Pattern

namespace Command

variable {η : Type}

/-- The written pattern of the requests for help on a command with this name. -/
def helpPattern (name : String) : String :=
  "(^" ++ Pattern.escaped name ++ "\\s[?]$)|(^help\\s" ++ Pattern.escaped name ++ "$)"

/-- **Requests for help.** Whatever the name of a command is, the written pattern of the requests
for help on it can be read, and matches the requests and no other line. -/
theorem exists_helpPattern (c : Command η) : ∃ e,
    Pattern.Expr.read (helpPattern c.name).toList = .ok e ∧
      ∀ line, (e.toPattern.find? line).isSome = c.isHelpRequest line := by
  have asked := (Pattern.row_escaped c.name.toList).append
    (Pattern.row_blank.append Pattern.row_question)
  have named := (Pattern.row_escaped "help".toList).append
    (Pattern.row_blank.append (Pattern.row_escaped c.name.toList))
  refine ⟨_, Eq.trans (congrArg _ ?_) (asked.read_either named), fun line => ?_⟩
  · have hhelp : "help".toList.flatMap Pattern.escapedChar = "help".toList := by decide
    rw [hhelp]
    simp [helpPattern, Pattern.escaped]
  · rw [Pattern.isSome_find?_either]
    simp [isHelpRequest, helpTemplates, Template.exactly, Function.comp_def]

end Command

end CommandConsole

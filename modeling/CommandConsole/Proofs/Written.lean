import CommandConsole.Pattern.Reader
import CommandConsole.Proofs.Matching
import CommandConsole.Proofs.Tokens

/-!
# CommandConsole.Proofs.Written — the pattern that a signature writes

A signature keeps its rule for lines as a written pattern too. Read as a pattern, and matched as
patterns are, it gives the same values in the same lines.

* `Pattern.Lexes`, `Pattern.Adds`: the tokens of a part of a written pattern, and the items that the
  reader makes of them.
* `Pattern.Spelled`: patterns in a row match what steps in a row read.
* `Signature.exists_pattern`: the written pattern of a signature.
-/

namespace CommandConsole

namespace Pattern

open Template

/-! ### Tokens -/

/-- The characters are read as these tokens, in whatever groups they stand; then another token may
start. Blanks count. -/
def Lexes (cs : List Char) (ts : List Token) : Prop :=
  ∀ around, Lexer.run { verbosity := { around } } cs = .ok ({ verbosity := { around } }, ts)

theorem lexes_nil : Lexes [] [] := fun _ => rfl

theorem Lexes.append {cs ds : List Char} {ts us : List Token} (h : Lexes cs ts)
    (h' : Lexes ds us) : Lexes (cs ++ ds) (ts ++ us) :=
  fun around => Lexer.run_append_eq_ok_iff.mpr ⟨_, ts, us, h around, h' around, rfl⟩

/-- A character that is a token. -/
theorem lexes_one {c : Char} {t : Token} (h : Mode.start c = (.between, [t]))
    (ht : ∀ v : Verbosity, v.step t = .ok v) : Lexes [c] [t] := by
  intro around
  refine Lexer.run_cons_eq_ok_iff.mpr ⟨_, [t], [], Lexer.step_of_mode rfl ?_ ?_, rfl, rfl⟩
  · show Except.ok (Mode.next .between c) = _
    unfold Mode.next
    rw [h]
    rfl
  · rw [List.foldlM_cons, ht]
    rfl

theorem Lexes.tokens_eq {cs : List Char} {ts : List Token} (h : Lexes cs ts) :
    tokens cs = .ok ts :=
  tokens_eq_ok_iff.mpr ⟨_, ts, [], h [], rfl, (List.append_nil ts).symm⟩

/-! ### Items -/

/-- Read without flags, the tokens add items to the innermost group; the items depend on how many
groups have been opened before, and so many are opened in them. -/
def Adds (ts : List Token) (items : Nat → List Item) (opened : Nat) : Prop :=
  ∀ r : ReaderState, r.branches.flags = {} → ∃ repeatable, ts.foldlM ReaderState.step r = .ok
    { r with
      branches := { r.branches with
        items := (items r.captures).reverse ++ r.branches.items
        repeatable }
      captures := r.captures + opened }

theorem adds_nil : Adds [] (fun _ => []) 0 := fun _ _ => ⟨_, rfl⟩

theorem adds_char (c : Char) :
    Adds [.atom (.char c)] (fun _ => [{ expr := .one (.only c) }]) 0 := by
  intro r hr
  refine ⟨true, ?_⟩
  show r.addExpr 0 (r.branches.flags.atom (.char c)) >>= pure = _
  rw [hr]
  rfl

theorem Adds.append {ts us : List Token} {items items' : Nat → List Item} {k k' : Nat}
    (h : Adds ts items k) (h' : Adds us items' k') :
    Adds (ts ++ us) (fun i => items i ++ items' (i + k)) (k + k') := by
  intro r hr
  obtain ⟨repeatable, hfirst⟩ := h r hr
  let r' : ReaderState :=
    { r with
      branches := { r.branches with
        items := (items r.captures).reverse ++ r.branches.items
        repeatable }
      captures := r.captures + k }
  obtain ⟨repeatable', hsecond⟩ := h' r' hr
  refine ⟨repeatable', ?_⟩
  rw [List.foldlM_append, hfirst, List.reverse_append, List.append_assoc, ← Nat.add_assoc]
  exact hsecond

/-! ### Patterns in a row -/

/-- The expression matches what the steps read, and its groups have the numbers behind `i` and up to
`j`. -/
structure Spells (e : Expr) (steps : Template) (i j : Nat) : Prop where
  ordered (n : Nat) : Ordered (e.build n).1 n (e.build n).2
  arity (n : Nat) : max i (e.build n).1.arity = j
  reads (n : Nat) {last : Nat} {follow : Cursor → Option Cursor} {t : Template} :
    Reads follow t (Captures last j) →
      Reads ((e.build n).1.attempt follow) (steps ++ t) (Captures last i)

/-- The same for expressions in a row. -/
inductive Spelled : List Expr → Template → Nat → Nat → Prop
  | nil {i : Nat} : Spelled [] [] i i
  | cons {e : Expr} {es : List Expr} {steps steps' : Template} {i j k : Nat} :
      Spells e steps i j → Spelled es steps' j k → Spelled (e :: es) (steps ++ steps') i k

theorem Spells.alone {e : Expr} {steps : Template} {i j : Nat} (h : Spells e steps i j) :
    Spelled [e] steps i j := by
  have hcons := Spelled.cons h (.nil (i := j))
  rwa [List.append_nil] at hcons

theorem Spelled.append {es es' : List Expr} {steps steps' : Template} {i j k : Nat}
    (h : Spelled es steps i j) (h' : Spelled es' steps' j k) :
    Spelled (es ++ es') (steps ++ steps') i k := by
  induction h with
  | nil => exact h'
  | cons he _ ih =>
    rw [List.append_assoc]
    exact .cons he (ih h')

/-- The expression matches the whole rest of a line, as the steps read it. -/
structure Closes (e : Expr) (steps : Template) (i last : Nat) : Prop where
  ordered (n : Nat) : Ordered (e.build n).1 n (e.build n).2
  arity (n : Nat) : max i (e.build n).1.arity = last
  reads (n : Nat) : Reads ((e.build n).1.attempt some) steps (Captures last i)

theorem Closes.arity_eq {e : Expr} {steps : Template} {last : Nat} (h : Closes e steps 0 last)
    (n : Nat) : (e.build n).1.arity = last := by
  rw [← h.arity n, Nat.zero_max]

theorem sequence_concat (e last : Expr) (es : List Expr) :
    Expr.sequence (e :: (es ++ [last])) = .seq e (.sequence (es ++ [last])) := by
  cases es <;> rfl

theorem Spelled.closes {es : List Expr} {steps : Template} {i last : Nat}
    (h : Spelled es steps i last) :
    Closes (.sequence (es ++ [.anchor .textEnd])) steps i last := by
  induction h with
  | nil => exact ⟨fun _ => .anchor, fun _ => Nat.max_zero _, fun _ => reads_textEnd⟩
  | @cons e es steps steps' i j k he _ ih =>
    rw [List.cons_append, sequence_concat]
    refine ⟨fun n => .seq (he.ordered n) (ih.ordered _), fun n => ?_,
      fun n => he.reads n (ih.reads _)⟩
    show max i (max _ _) = k
    rw [← Nat.max_assoc, he.arity, ih.arity]

theorem spells_only (c : Char) (i : Nat) : Spells (.one (.only c)) [.one (.only c)] i i where
  ordered _ := .one
  arity _ := Nat.max_zero i
  reads _ := readsAs_one (.only c) (grows_captures _ i)

/-- An expression without groups matches what the steps read. -/
structure SpellsPlain (e : Expr) (steps : Template) : Prop where
  ordered (n : Nat) : Ordered (e.build n).1 n (e.build n).2
  arity (n : Nat) : (e.build n).1.arity = 0
  readsAs (n : Nat) : (e.build n).1.ReadsAs steps

theorem SpellsPlain.seq {a b : Expr} {steps steps' : Template} (ha : SpellsPlain a steps)
    (hb : SpellsPlain b steps') : SpellsPlain (.seq a b) (steps ++ steps') where
  ordered n := .seq (ha.ordered n) (hb.ordered _)
  arity n := by
    show max _ _ = 0
    rw [ha.arity, hb.arity, Nat.max_self]
  readsAs n := ReadsAs.seq (ha.readsAs n) (hb.readsAs _)

theorem SpellsPlain.group {e : Expr} {steps : Template} (h : SpellsPlain e steps) (i : Nat) :
    Spells (.group (i + 1) e) (.cut :: steps ++ [.cut]) i (i + 1) where
  ordered n := .group (h.ordered n)
  arity n := by
    show max i (max (i + 1) _) = i + 1
    rw [h.arity]
    omega
  reads n := reads_group (h.readsAs n)

/-- Part of a written pattern: it is read as expressions in a row that match what the steps read,
with so many groups. None of them is deep, so that the whole pattern keeps to the limit. -/
def Fragment (cs : List Char) (steps : Template) (opened : Nat) : Prop :=
  ∃ ts items, Lexes cs ts ∧ Adds ts items opened ∧ ∀ i,
    (∀ item ∈ items i, item.depth ≤ 4) ∧ Spelled ((items i).map Item.expr) steps i (i + opened)

theorem fragment_nil : Fragment [] [] 0 :=
  ⟨[], fun _ => [], lexes_nil, adds_nil, fun _ => ⟨List.forall_mem_nil _, .nil⟩⟩

theorem Fragment.append {cs ds : List Char} {steps steps' : Template} {k k' : Nat}
    (h : Fragment cs steps k) (h' : Fragment ds steps' k') :
    Fragment (cs ++ ds) (steps ++ steps') (k + k') := by
  obtain ⟨ts, items, hlex, hadd, hspell⟩ := h
  obtain ⟨us, items', hlex', hadd', hspell'⟩ := h'
  refine ⟨ts ++ us, fun i => items i ++ items' (i + k), hlex.append hlex', hadd.append hadd',
    fun i => ⟨List.forall_mem_append.mpr ⟨(hspell i).1, (hspell' (i + k)).1⟩, ?_⟩⟩
  rw [List.map_append, ← Nat.add_assoc]
  exact (hspell i).2.append (hspell' (i + k)).2

/-- A character that stands for itself, however it is written. -/
theorem fragment_char {c : Char} {cs : List Char} (h : Lexes cs [.atom (.char c)]) :
    Fragment cs [.one (.only c)] 0 :=
  ⟨_, _, h, adds_char c, fun i => ⟨by simp, (spells_only c i).alone⟩⟩

theorem lexes_space : Lexes [' '] [.atom (.char ' ')] := fun _ => rfl

/-! ### Whole patterns -/

/-- Nothing but its size can be held against a pattern that has been read. -/
theorem read_of_read {cs : List Char} {e : Expr} (h : Expr.read cs = .ok e) :
    Pattern.read cs = if fits e then .ok e.toPattern else .error .tooLarge := by
  unfold Pattern.read
  rw [h]
  rfl

theorem foldl_max_le {items : List Item} {most : Nat} (h : ∀ item ∈ items, item.depth ≤ most)
    {depth : Nat} (hd : depth ≤ most) :
    items.foldl (fun depth i => max depth i.depth) depth ≤ most := by
  induction items generalizing depth with
  | nil => exact hd
  | cons item items ih =>
    obtain ⟨hfirst, hlater⟩ := List.forall_mem_cons.mp h
    exact ih hlater (Nat.max_le.mpr ⟨hd, hfirst⟩)

/-- The items of a branch that is not deep are read as a sequence. -/
theorem ofTokens_eq {ts : List Token} {r : ReaderState}
    (h : ts.foldlM ReaderState.step {} = .ok r) (hgroups : r.groups = [])
    (hearlier : r.branches.earlier = []) (hdepth : ∀ item ∈ r.branches.items, item.depth ≤ 4) :
    Expr.ofTokens ts = .ok (.sequence (r.branches.items.reverse.map Item.expr)) := by
  have hitem : r.branches.item = .anyOf [r.branches.last] := by
    unfold Branches.item
    rw [hearlier]
    rfl
  have hlast : r.branches.last.depth ≤ 5 := by
    have hreverse : ∀ item ∈ r.branches.items.reverse, item.depth ≤ 4 :=
      fun item hm => hdepth item (List.mem_reverse.mp hm)
    have hmax := foldl_max_le hreverse (Nat.zero_le 4)
    unfold Branches.last Item.sequence
    dsimp only
    split <;> omega
  have hlimit : ¬ depthLimit < (Item.anyOf [r.branches.last]).depth := by
    show ¬ 250 < max 0 r.branches.last.depth
    omega
  rw [Expr.ofTokens_of_foldlM h hgroups, hitem, if_neg hlimit]
  rfl

/-- A fragment between the ends of a line is read as an expression that closes the line. -/
theorem Fragment.exists_closes {cs : List Char} {steps : Template} {k : Nat}
    (h : Fragment cs steps k) :
    ∃ e, Expr.read ('^' :: (cs ++ ['$'])) = .ok (.seq (.anchor .textStart) e) ∧
      Closes e steps 0 k := by
  obtain ⟨ts, items, hlex, hadd, hspell⟩ := h
  obtain ⟨hdepth, hspelled⟩ := hspell 0
  rw [Nat.zero_add] at hspelled
  have hstart : Lexes ['^'] [.atom (.place .lineStart)] := fun _ => rfl
  have hend : Lexes ['$'] [.atom (.place .lineEnd)] := fun _ => rfl
  have hwhole : Lexes ('^' :: (cs ++ ['$']))
      (.atom (.place .lineStart) :: (ts ++ [.atom (.place .lineEnd)])) :=
    hstart.append (hlex.append hend)
  refine ⟨.sequence ((items 0).map Item.expr ++ [.anchor .textEnd]), ?_, hspelled.closes⟩
  let first : Item := { expr := .anchor .textStart }
  let last : Item := { expr := .anchor .textEnd }
  obtain ⟨repeatable, hfold⟩ := hadd (({} : ReaderState).add first) rfl
  have hall : (Token.atom (.place .lineStart) :: (ts ++ [.atom (.place .lineEnd)])).foldlM
      ReaderState.step {} = .ok
        { branches := { items := last :: ((items 0).reverse ++ [first]), repeatable := true }
          captures := 0 + k } := by
    show (ts ++ [Token.atom (.place .lineEnd)]).foldlM ReaderState.step
      (({} : ReaderState).add first) = _
    rw [List.foldlM_append, hfold]
    rfl
  have hitems : ∀ item ∈ last :: ((items 0).reverse ++ [first]), item.depth ≤ 4 := by
    simpa [first, last, or_imp, forall_and] using hdepth
  have hread := ofTokens_eq hall rfl rfl hitems
  unfold Expr.read
  rw [hwhole.tokens_eq]
  refine hread.trans ?_
  -- the newest item comes first, so the list is that of the line from its end to its start
  simp only [List.reverse_cons, List.reverse_append, List.reverse_reverse, List.reverse_nil,
    List.nil_append, List.cons_append, List.map_cons, List.map_append, List.map_nil]
  rw [sequence_concat]

end Pattern

open Pattern

/-! ### Kinds -/

namespace PlaceholderKind

/-- The tokens of a written group of values. -/
def tokens (kind : PlaceholderKind) : List Token :=
  let digits : ClassPart := ⟨.bracket false (.item (.range '0' '9')), 1⟩
  let inner : List Token := match kind with
    | int => [.bracket digits, .rounds 1 none false]
    | float => [.bracket digits, .rounds 1 none false,
        .bracket ⟨.bracket false (.item (.char '.')), 1⟩, .rounds 0 none false,
        .bracket digits, .rounds 0 none false]
    | text => [.dot, .rounds 1 none false]
    | yesNo => [.bracket ⟨.bracket false (.union (.item (.char 'y')) (.item (.char 'n'))), 2⟩]
  .start (.capturing none) :: inner ++ [.close]

/-- The expression of the values. -/
def expr : PlaceholderKind → Expr
  | int => .rounds 1 none true (.one .asciiDigit)
  | float => .seq (.rounds 1 none true (.one .asciiDigit))
      (.seq (.rounds 0 none true (.one (.only '.'))) (.rounds 0 none true (.one .asciiDigit)))
  | text => .rounds 1 none true (.one .notLineBreak)
  | yesNo => .one ((CharSet.only 'y').union (.only 'n'))

/-- The depth of the written group. -/
def depth : PlaceholderKind → Nat
  | int => 3
  | float => 4
  | text => 2
  | yesNo => 3

theorem lexes_patternText (kind : PlaceholderKind) :
    Lexes kind.patternText.toList kind.tokens := by
  intro around
  cases kind <;> rfl

theorem adds_tokens (kind : PlaceholderKind) :
    Adds kind.tokens (fun i => [⟨.group (i + 1) kind.expr, kind.depth⟩]) 1 := by
  intro r hr
  obtain ⟨⟨flags, earlier, items, repeatable⟩, groups, captures, names⟩ := r
  dsimp only at hr
  subst hr
  exact ⟨true, by cases kind <;> rfl⟩

theorem spellsPlain_expr (kind : PlaceholderKind) : SpellsPlain kind.expr kind.steps := by
  have oneOrMore (set : CharSet) :
      SpellsPlain (.rounds 1 none true (.one set)) (Template.oneOrMore set) :=
    ⟨fun _ => .seq .empty .atLeastOne, fun _ => rfl,
      fun n => readsAs_empty.seq (readsAs_atLeastOne set n)⟩
  have any (set : CharSet) : SpellsPlain (.rounds 0 none true (.one set)) [.many set] :=
    ⟨fun _ => .many, fun _ => rfl, fun n => readsAs_many set n⟩
  cases kind with
  | int => exact oneOrMore .asciiDigit
  | float =>
    exact (oneOrMore .asciiDigit).seq ((any (.only '.')).seq (any .asciiDigit))
  | text => exact oneOrMore .notLineBreak
  | yesNo =>
    have hset : (CharSet.only 'y').union (.only 'n') = .ofList ['y', 'n'] := by decide +kernel
    unfold expr
    rw [hset]
    exact ⟨fun _ => .one, fun _ => rfl, fun _ => readsAs_one _⟩

end PlaceholderKind

/-! ### Tokens of a signature -/

namespace SignatureToken

/-- How many values a token gives. -/
def count : SignatureToken → Nat
  | word _ => 0
  | value _ => 1

/-- A dash is written with a backslash; no other part of a word has a meaning in patterns. -/
theorem lexes_wordPart {c : Char} (h : isWordPart c = true) :
    Lexes (if c = '-' then ['\\', '-'] else [c]) [.atom (.char c)] := by
  by_cases hdash : c = '-'
  · subst hdash
    exact fun _ => rfl
  · rw [if_neg hdash]
    refine lexes_one ?_ fun _ => rfl
    unfold Mode.start
    split <;> first | rfl | exact absurd h (by decide)

theorem fragment_word {cs : List Char} (h : ∀ c ∈ cs, isWordPart c = true) :
    Fragment (cs.flatMap fun c => if c = '-' then ['\\', '-'] else [c]) (Template.exactly cs)
      0 := by
  induction cs with
  | nil => exact fragment_nil
  | cons c cs ih =>
    obtain ⟨hc, hcs⟩ := List.forall_mem_cons.mp h
    exact (fragment_char (lexes_wordPart hc)).append (ih hcs)

theorem fragment {text : String} {token : SignatureToken} (h : read? text = some token) :
    Fragment token.patternText.toList token.steps token.count := by
  cases token with
  | word word =>
    unfold patternText
    rw [String.toList_ofList]
    exact fragment_word (isWordPart_of_read? h)
  | value p =>
    have hdepth : p.kind.depth ≤ 4 := by cases p.kind <;> decide
    exact ⟨_, _, p.kind.lexes_patternText, p.kind.adds_tokens, fun i =>
      ⟨by simpa using hdepth, (p.kind.spellsPlain_expr.group i).alone⟩⟩

end SignatureToken

namespace Signature

/-- The parts of the written pattern are those of the template. -/
theorem fragment_line {tokens : List SignatureToken} (hne : tokens ≠ [])
    (h : ∀ token ∈ tokens, ∃ text, SignatureToken.read? text = some token) :
    Fragment ([' '].intercalate (tokens.map (·.patternText.toList))) (lineTemplate tokens)
      (tokens.filterMap (·.placeholder)).length := by
  unfold lineTemplate
  induction tokens with
  | nil => exact absurd rfl hne
  | cons token tokens ih =>
    obtain ⟨⟨text, htext⟩, hlater⟩ := List.forall_mem_cons.mp h
    have own := SignatureToken.fragment htext
    have hcount : ((token :: tokens).filterMap (·.placeholder)).length =
        token.count + (tokens.filterMap (·.placeholder)).length := by
      cases token <;> simp [SignatureToken.placeholder, SignatureToken.count, Nat.add_comm]
    rw [hcount]
    cases tokens with
    | nil =>
      rw [List.map_singleton, List.map_singleton, List.intercalate_singleton,
        List.intercalate_singleton]
      exact own
    | cons next tokens =>
      have behind := (fragment_char lexes_space).append (ih (List.cons_ne_nil next tokens) hlater)
      rw [Nat.zero_add] at behind
      rw [List.map_cons, List.map_cons, List.map_cons, List.map_cons, List.intercalate_cons_cons,
        List.intercalate_cons_cons, List.append_assoc, List.append_assoc]
      exact own.append behind

/-- The rule of a signature is read as an expression that closes the line. -/
theorem exists_closes (raw : String) {tokens : List SignatureToken} (hne : tokens ≠ [])
    (h : ∀ token ∈ tokens, ∃ text, SignatureToken.read? text = some token) :
    ∃ e, Expr.read (ofTokens raw tokens).matcher.toList = .ok (.seq (.anchor .textStart) e) ∧
      Closes e (lineTemplate tokens) 0 (tokens.filterMap (·.placeholder)).length := by
  have hmatcher : (ofTokens raw tokens).matcher.toList =
      '^' :: ([' '].intercalate (tokens.map (·.patternText.toList)) ++ ['$']) := by
    unfold ofTokens
    rw [String.toList_append, String.toList_append, String.toList_intercalate, List.map_map]
    rfl
  rw [hmatcher]
  exact (fragment_line hne h).exists_closes

/-- **Written patterns.** The rule of a signature can be read as a pattern, which gives the same
values for every line. -/
theorem exists_pattern {raw : String} {tokens : List SignatureToken} (hne : tokens ≠ [])
    (h : ∀ token ∈ tokens, ∃ text, SignatureToken.read? text = some token) :
    ∃ e, Expr.read (ofTokens raw tokens).matcher.toList = .ok e ∧ ∀ line,
      e.toPattern.captures? line = (ofTokens raw tokens).captures? line := by
  obtain ⟨e, hread, hcloses⟩ := exists_closes raw hne h
  refine ⟨_, hread, fun line => ?_⟩
  refine (captures?_of_reads (hcloses.ordered 0) (hcloses.arity_eq 0) (hcloses.reads 0)
    line).trans ?_
  rw [← Template.splitLine?_eq_split?]
  rfl

end Signature

end CommandConsole

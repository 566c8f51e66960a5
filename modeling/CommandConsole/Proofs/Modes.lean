import CommandConsole.Pattern.Lexer
import CommandConsole.Proofs.Except

/-!
# CommandConsole.Proofs.Modes — what a character of a written pattern completes

What is known of the tokens that a character completes, wherever in a token it stands.

* `Token.Inner`, `Mode.finish_ok`: what the end of a text completes.
* `Token.InOrder`, `Mode.InOrder.step`: no count asks for more rounds than it allows.
* `ClassReader.goesOn_step`: only a bracket completes a class.
* `Mode.step_paren`: where a parenthesis closes a group.
-/

namespace CommandConsole.Pattern

/-! ### What the end of a text completes -/

/-- The token neither opens nor closes a group, nor does it change flags. -/
def Token.Inner : Token → Prop
  | .start _ | .close | .flags _ => False
  | _ => True

namespace Mode

@[simp] theorem pending_between : between.pending = [] := rfl

/-- What is passed over completes no tokens but such. -/
theorem inner_of_pass (m : Mode) (c : Char) : ∀ t ∈ (m.pass c).2, t.Inner := by
  unfold pass pending
  split <;> simp [Token.Inner]

theorem finish_ok {m : Mode} {ts : List Token} (h : m.finish = .ok ts) :
    ts = m.pending ∧ ∀ t ∈ ts, t.Inner := by
  cases m with
  | between | repeated | boundary =>
    cases h
    simp [pending, Token.Inner]
  | _ => cases h

end Mode

/-! ### Counts -/

/-- A count is in order if it does not ask for more rounds than it allows. -/
def Token.InOrder : Token → Prop
  | .rounds least most _ => ∀ m, most = some m → least ≤ m
  | _ => True

theorem Count.le_of_step {n : Count} {c : Char} {least most : Nat}
    (h : n.step c = .ok (.inr (least, some most))) : least ≤ most := by
  unfold step at h
  split at h
  · obtain ⟨_, hclose, heq⟩ := map_eq_ok_iff.mp h
    cases heq
    unfold close at hclose
    split at hclose
    · obtain ⟨_, -, heq⟩ := map_eq_ok_iff.mp hclose
      cases heq
      exact Nat.le_refl least
    · split at hclose
      · cases hclose
      · obtain ⟨_, -, hbehind⟩ := bind_eq_ok_iff.mp hclose
        split at hbehind
        · cases hbehind
          assumption
        · cases hbehind
  · split at h
    · obtain ⟨_, -, heq⟩ := bind_eq_ok_iff.mp h
      cases heq
    · split at h
      · cases h
      · split at h <;> cases h

namespace GroupHeader

variable {c : Char} {t : Token}

theorem nameStep_ok {read : List Char} (h : nameStep read c = .ok (.inr t)) :
    ∃ g, t = .start g := by
  unfold nameStep at h
  split at h
  · cases h
    exact ⟨_, rfl⟩
  · split at h <;> cases h

theorem flagStep_ok {change : FlagChange} {off dangling : Bool}
    (h : flagStep change off dangling c = .ok (.inr t)) :
    (∃ g, t = .start g) ∨ ∃ change, t = .flags change := by
  unfold flagStep at h
  split at h
  · split at h
    · cases h
    · split at h
      · cases h
        exact Or.inl ⟨_, rfl⟩
      · split at h
        · cases h
        · cases h
          exact Or.inr ⟨_, rfl⟩
  · split at h
    · split at h <;> cases h
    · split at h
      · cases h
      · split at h <;> cases h

/-- Behind a question mark a group starts, or flags change. -/
theorem step_ok {g : GroupHeader} (h : g.step c = .ok (.inr t)) :
    (∃ g, t = .start g) ∨ ∃ change, t = .flags change := by
  cases g with
  | asked =>
    rw [step] at h
    split at h
    · cases h
    · split at h
      · cases h
      · split at h
        · cases h
        · exact flagStep_ok h
  | letter =>
    rw [step] at h
    split at h <;> cases h
  | angle =>
    rw [step] at h
    split at h
    · cases h
    · exact Or.inl (nameStep_ok h)
  | name read => exact Or.inl (nameStep_ok h)
  | flags change off dangling => exact flagStep_ok h

end GroupHeader

namespace Mode

variable {m m' : Mode} {c : Char} {ts : List Token}

/-- The counts that wait here for a question mark are in order. -/
def InOrder (m : Mode) : Prop := ∀ t ∈ m.pending, t.InOrder

theorem inOrder_next (h : m.InOrder) (c : Char) :
    (m.next c).1.InOrder ∧ ∀ t ∈ (m.next c).2, t.InOrder := by
  have hstart : (start c).1.InOrder ∧ ∀ t ∈ (start c).2, t.InOrder := by
    unfold start InOrder
    split <;> simp [pending, Token.InOrder]
  exact ⟨hstart.1, List.forall_mem_append.mpr ⟨h, hstart.2⟩⟩

theorem inOrder_of_countStep {n : Count} (h : countStep n c = .ok m) : m.InOrder := by
  obtain ⟨n' | ⟨least, most⟩, hstep, rfl⟩ := map_eq_ok_iff.mp h
  · exact List.forall_mem_nil _
  · refine List.forall_mem_singleton.mpr ?_
    rintro most rfl
    exact Count.le_of_step hstep

/-- A step completes counts in order, and leaves such. -/
theorem InOrder.step (h : m.InOrder) (hm : m.step c = .ok (m', ts)) :
    m'.InOrder ∧ ∀ t ∈ ts, t.InOrder := by
  have next {n : Mode} (hn : n.InOrder) (heq : n.next c = (m', ts)) :
      m'.InOrder ∧ ∀ t ∈ ts, t.InOrder := by
    have hnext := inOrder_next hn c
    rwa [heq] at hnext
  have goesOn {n : Mode} (hn : n.pending = []) : n.InOrder := by
    unfold InOrder
    rw [hn]
    exact List.forall_mem_nil _
  have completes {t : Token} (ht : t.InOrder) (heq : (between, [t]) = (m', ts)) :
      m'.InOrder ∧ ∀ t ∈ ts, t.InOrder := by
    cases heq
    exact ⟨goesOn rfl, List.forall_mem_singleton.mpr ht⟩
  cases m with
  | between => exact next h (Except.ok.inj hm)
  | repeated least most counted =>
    rw [Mode.step] at hm
    split at hm
    · have hcount : (Token.rounds least most false).InOrder := h _ List.mem_cons_self
      exact completes (t := .rounds least most true) hcount (Except.ok.inj hm)
    · exact next h (Except.ok.inj hm)
  | count n =>
    obtain ⟨_, hcount, heq⟩ := map_eq_ok_iff.mp hm
    cases heq
    exact ⟨inOrder_of_countStep hcount, List.forall_mem_nil _⟩
  | opened =>
    rw [Mode.step] at hm
    split at hm
    · cases hm
      exact ⟨goesOn rfl, List.forall_mem_nil _⟩
    · exact next h (Except.ok.inj hm)
  | header n =>
    obtain ⟨n | t, hstep, heq⟩ := map_eq_ok_iff.mp hm
    · cases heq
      exact ⟨goesOn rfl, List.forall_mem_nil _⟩
    · obtain ⟨g, rfl⟩ | ⟨change, rfl⟩ := GroupHeader.step_ok hstep
      · exact completes (t := .start g) trivial heq
      · exact completes (t := .flags change) trivial heq
  | escape e =>
    obtain ⟨e | a, -, heq⟩ := map_eq_ok_iff.mp hm
    · cases heq
      exact ⟨goesOn rfl, List.forall_mem_nil _⟩
    · dsimp only at heq
      split at heq
      · cases heq
        exact ⟨List.forall_mem_singleton.mpr trivial, List.forall_mem_nil _⟩
      · exact completes (t := .atom a) trivial heq
  | boundary =>
    rw [Mode.step] at hm
    split at hm
    · cases hm
      exact ⟨h, List.forall_mem_nil _⟩
    · exact next h (Except.ok.inj hm)
  | boundaryBrace =>
    rw [Mode.step] at hm
    split at hm
    · cases hm
      exact ⟨goesOn rfl, List.forall_mem_nil _⟩
    · obtain ⟨_, hcount, heq⟩ := map_eq_ok_iff.mp hm
      cases heq
      exact ⟨inOrder_of_countStep hcount, h⟩
  | boundaryName read =>
    rw [Mode.step] at hm
    split at hm
    · cases hm
      exact ⟨goesOn rfl, List.forall_mem_nil _⟩
    · split at hm
      · split at hm
        · exact completes (t := .atom _) trivial (Except.ok.inj hm)
        · cases hm
      · cases hm
  | bracket r =>
    obtain ⟨r | p, -, heq⟩ := map_eq_ok_iff.mp hm
    · cases heq
      exact ⟨goesOn rfl, List.forall_mem_nil _⟩
    · exact completes (t := .bracket p) trivial heq

theorem InOrder.pass (h : m.InOrder) (c : Char) :
    (m.pass c).1.InOrder ∧ ∀ t ∈ (m.pass c).2, t.InOrder := by
  unfold Mode.pass
  split
  · exact ⟨List.forall_mem_nil _, h⟩
  · exact ⟨List.forall_mem_nil _, h⟩
  · exact ⟨List.forall_mem_nil _, List.forall_mem_nil _⟩
  · exact ⟨h, List.forall_mem_nil _⟩

end Mode

/-! ### Classes -/

namespace ClassReader

/-- The class goes on, whatever is read. -/
def Result.GoesOn (x : Result) : Prop := ∀ p, x ≠ .ok (.inr p)

variable {r : ClassReader} {a : Atom} {g : Glance} {first c : Char}

theorem Result.goesOn_bind {α : Type} {x : Except PatternFault α} {f : α → Result}
    (h : ∀ a, (f a).GoesOn) : Result.GoesOn (x >>= f) := by
  intro p hp
  obtain ⟨a, -, ha⟩ := bind_eq_ok_iff.mp hp
  exact h a p ha

theorem goesOn_more (r : ClassReader) : Result.GoesOn (.ok (.inl r)) := nofun

theorem goesOn_item (hc : c ≠ ']') : (r.item c).GoesOn := by
  unfold item
  split
  · exact absurd rfl hc
  all_goals exact goesOn_more _

theorem goesOn_behind (hc : c ≠ ']') : (r.behind a c).GoesOn := by
  unfold behind
  split
  · exact goesOn_more _
  · exact Result.goesOn_bind fun _ => goesOn_item hc

theorem goesOn_sign (hc : c ≠ ']') : (r.sign first c).GoesOn := by
  unfold sign
  split
  · split
    · exact goesOn_more _
    · exact goesOn_behind hc
  · exact goesOn_behind hc

theorem goesOn_rangeEnd : (r.rangeEnd a c).GoesOn := by
  unfold rangeEnd
  split
  · exact goesOn_more _
  · exact Result.goesOn_bind fun _ => goesOn_more _

theorem goesOn_dash (hc : c ≠ ']') : (r.dash a g c).GoesOn := by
  unfold dash
  split
  · exact goesOn_rangeEnd
  · exact Result.goesOn_bind fun _ => goesOn_behind hc
  · split
    · exact goesOn_rangeEnd
    · refine Result.goesOn_bind fun _ => ?_
      dsimp only
      split
      · exact goesOn_sign hc
      · exact goesOn_behind hc

theorem goesOn_front (hc : c ≠ ']') : (r.front c).GoesOn := by
  unfold front
  split
  · exact goesOn_more _
  · split
    · exact goesOn_more _
    · exact goesOn_item hc

theorem goesOn_escape {first : Option Atom} {e : Escape} : (r.escape first e c).GoesOn := by
  unfold escape
  refine Result.goesOn_bind fun x => ?_
  split
  · exact goesOn_more _
  · split
    · exact goesOn_more _
    · exact Result.goesOn_bind fun _ => goesOn_more _

theorem goesOn_read (hc : c ≠ ']') : (r.read c).GoesOn := by
  unfold read
  split
  · split
    · exact goesOn_more _
    · exact goesOn_front hc
  · exact goesOn_front hc
  · exact goesOn_item hc
  · exact goesOn_sign hc
  · exact goesOn_behind hc
  · exact goesOn_dash hc
  · exact goesOn_escape

/-- A class is complete behind a bracket only. -/
theorem goesOn_step (hc : c ≠ ']') : (r.step c).GoesOn := by
  unfold step
  dsimp only
  split
  · exact goesOn_more _
  · exact goesOn_read hc

end ClassReader

/-! ### Parentheses -/

theorem Count.step_paren (n : Count) : ∃ e, n.step ')' = .error e := ⟨_, rfl⟩

namespace Escape

variable {e : Escape} {x : Escape ⊕ Atom}

/-- A parenthesis completes no escape for a boundary, and leaves none incomplete but names. -/
theorem step_paren (h : e.step ')' = .ok x) :
    (∃ a, x = .inr a ∧ a ≠ .place (.word .boundary)) ∨
      ∃ negated read, x = .inl (.propertyName negated read) := by
  cases e with
  | start =>
    cases h
    exact Or.inl ⟨_, rfl, nofun⟩
  | digits count read => cases read <;> cases h
  | braced read => cases h
  | property negated =>
    change (properties negated [')']).map .inr = .ok x at h
    obtain ⟨a, ha, rfl⟩ := map_eq_ok_iff.mp h
    obtain ⟨_, -, rfl⟩ := map_eq_ok_iff.mp ha
    exact Or.inl ⟨_, rfl, nofun⟩
  | propertyName negated read =>
    cases h
    exact Or.inr ⟨_, _, rfl⟩

end Escape

namespace GroupHeader

variable {g : GroupHeader} {x : GroupHeader ⊕ Token}

theorem step_paren (h : g.step ')' = .ok x) : ∃ t, x = .inr t ∧ t ≠ .close := by
  cases g with
  | asked | letter | angle => cases h
  | name read => cases read <;> cases h
  | flags change off dangling =>
    cases dangling with
    | true => cases h
    | false =>
      change (if change = [] then .error .nothingToRepeat else .ok (.inr (.flags change)) :
        Except PatternFault (GroupHeader ⊕ Token)) = .ok x at h
      split at h
      · cases h
      · cases h
        exact ⟨_, rfl, nofun⟩

end GroupHeader

namespace Mode

variable {m n : Mode} {ts : List Token}

/-- The token here is not complete behind the sign for the end of a line. -/
def Unclosed (m : Mode) : Prop :=
  ∀ n ts, m.step '$' = .ok (n, ts) → ∀ us, n.finish ≠ .ok us

theorem unclosed_bracket (r : ClassReader) : (bracket r).Unclosed := by
  intro n ts h us hus
  obtain ⟨r | p, hstep, heq⟩ := map_eq_ok_iff.mp h
  · cases heq
    cases hus
  · exact ClassReader.goesOn_step (by decide) p hstep

theorem unclosed_propertyName (negated : Bool) (read : List Char) :
    (escape (.propertyName negated read)).Unclosed := by
  rintro n ts ⟨⟩ us ⟨⟩

/-- Where the text could end, a parenthesis closes a group. -/
theorem step_paren_of_finish (h : m.finish = .ok ts) :
    m.step ')' = .ok (.between, ts ++ [.close]) := by
  cases m with
  | between | repeated | boundary =>
    cases h
    rfl
  | _ => cases h

/-- **A parenthesis** closes a group where the text could end, and where a group has just been
opened. Elsewhere it belongs to the token in front of it. -/
theorem step_paren (h : m.step ')' = .ok (n, ts)) :
    (n = .between ∧ ts = m.pending ++ [.close] ∧ (m = .opened ∨ m.finish = .ok m.pending)) ∨
      (∃ t, t ≠ .close ∧ n = .between ∧ ts = [t]) ∨ n.Unclosed := by
  cases m with
  | between | repeated | boundary =>
    cases h
    exact Or.inl ⟨rfl, rfl, Or.inr rfl⟩
  | opened =>
    cases h
    exact Or.inl ⟨rfl, rfl, Or.inl rfl⟩
  | count n => cases h
  | header g =>
    obtain ⟨x, hstep, heq⟩ := map_eq_ok_iff.mp h
    obtain ⟨t, rfl, ht⟩ := GroupHeader.step_paren hstep
    cases heq
    exact Or.inr (Or.inl ⟨t, ht, rfl, rfl⟩)
  | escape e =>
    obtain ⟨x, hstep, heq⟩ := map_eq_ok_iff.mp h
    obtain ⟨a, rfl, ha⟩ | ⟨negated, read, rfl⟩ := Escape.step_paren hstep
    · dsimp only at heq
      rw [if_neg ha] at heq
      cases heq
      exact Or.inr (Or.inl ⟨.atom a, nofun, rfl, rfl⟩)
    · cases heq
      exact Or.inr (Or.inr (unclosed_propertyName negated read))
  | boundaryBrace | boundaryName => cases h
  | bracket r =>
    obtain ⟨r | p, hstep, heq⟩ := map_eq_ok_iff.mp h
    · cases heq
      exact Or.inr (Or.inr (unclosed_bracket r))
    · exact (ClassReader.goesOn_step (by decide) p hstep).elim

end Mode

end CommandConsole.Pattern

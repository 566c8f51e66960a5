import CommandConsole.Proofs.Modes

/-!
# CommandConsole.Proofs.Tokens — reading a text token by token

The lexer reads a text one character after the other, so what it makes of a text is what it makes of
the parts in turn. Of the groups that are open it only minds whether blanks count. So one more group
around all others makes no difference, as long as it is not closed.

* `nesting`, `Nests`: how many groups tokens leave open, and steps that keep count of them.
* `Lexer.step_ok`: what one step can do; `Lexer.run_append_eq_ok_iff`: one text after the other.
* `Lexer.foldlM_of_run`: blanks count as the tokens tell.
* `Lexer.run_inside_iff`: reading inside one more group.
* `Lexer.Sound`, `inOrder_of_tokens`: no count asks for more rounds than it allows.
-/

namespace CommandConsole.Pattern

/-! ### How many groups are open -/

/-- How many groups are open behind a token, if it does not close one that is not open. -/
def Token.nest (opened : Nat) : Token → Option Nat
  | .start _ => some (opened + 1)
  | .close => match opened with
    | 0 => none
    | opened + 1 => some opened
  | _ => some opened

/-- How many groups are open behind tokens, if none of them closes one that is not open. -/
def nesting (opened : Nat) (ts : List Token) : Option Nat := ts.foldlM Token.nest opened

theorem nesting_append (opened : Nat) (ts us : List Token) :
    nesting opened (ts ++ us) = (nesting opened ts).bind fun n => nesting n us :=
  List.foldlM_append

/-- Steps over tokens that keep count of the groups that are open. One more group around all others
makes no difference as long as it is not closed. -/
structure Nests {σ : Type} (step : σ → Token → Except PatternFault σ) (opened : σ → Nat)
    (inside : σ → σ) : Prop where
  nest_eq {s s' : σ} {t : Token} : step s t = .ok s' → t.nest (opened s) = some (opened s')
  inside_eq {s : σ} {t : Token} {n : Nat} :
    t.nest (opened s) = some n → step (inside s) t = (step s t).map inside

namespace Nests

variable {σ : Type} {step : σ → Token → Except PatternFault σ} {opened : σ → Nat} {inside : σ → σ}
  {s s' : σ} {ts : List Token} {n : Nat}

theorem nesting_eq (h : Nests step opened inside) (hts : ts.foldlM step s = .ok s') :
    nesting (opened s) ts = some (opened s') := by
  induction ts generalizing s with
  | nil =>
    cases hts
    rfl
  | cons t ts ih =>
    rw [List.foldlM_cons] at hts
    obtain ⟨s₁, hstep, hlater⟩ := bind_eq_ok_iff.mp hts
    unfold nesting
    rw [List.foldlM_cons, h.nest_eq hstep]
    exact ih hlater

theorem opened_eq (h : Nests step opened inside) (hts : ts.foldlM step s = .ok s')
    (hn : nesting (opened s) ts = some n) : opened s' = n :=
  Option.some.inj ((h.nesting_eq hts).symm.trans hn)

theorem foldlM_inside (h : Nests step opened inside) (hts : nesting (opened s) ts = some n) :
    ts.foldlM step (inside s) = (ts.foldlM step s).map inside := by
  induction ts generalizing s with
  | nil => rfl
  | cons t ts ih =>
    unfold nesting at hts
    rw [List.foldlM_cons] at hts
    obtain ⟨between, hnest, hlater⟩ := Option.bind_eq_some_iff.mp hts
    rw [List.foldlM_cons, List.foldlM_cons, h.inside_eq hnest]
    cases hstep : step s t with
    | error e => rfl
    | ok s' =>
      rw [h.nest_eq hstep] at hnest
      obtain rfl := Option.some.inj hnest
      exact ih hlater

end Nests

/-! ### Blanks and comments -/

theorem nesting_of_inner {ts : List Token} (h : ∀ t ∈ ts, t.Inner) (opened : Nat) :
    nesting opened ts = some opened := by
  induction ts with
  | nil => rfl
  | cons t ts ih =>
    obtain ⟨ht, hts⟩ := List.forall_mem_cons.mp h
    cases t with
    | start | close | flags => exact ht.elim
    | _ => exact ih hts

namespace Verbosity

variable {v v' : Verbosity}

/-- The same inside one more group. -/
def inside (now : Bool) (v : Verbosity) : Verbosity := { v with around := v.around ++ [now] }

theorem nests (now : Bool) : Nests step (·.around.length) (inside now) where
  nest_eq {v v' t} h := by
    cases t with
    | start g => cases g <;> cases h <;> rfl
    | close =>
      obtain ⟨now, around⟩ := v
      cases around <;> cases h
      rfl
    | _ =>
      cases h
      rfl
  inside_eq {v t n} h := by
    cases t with
    | start g => cases g <;> rfl
    | close =>
      obtain ⟨now, around⟩ := v
      cases around with
      | nil => cases h
      | cons => rfl
    | _ => rfl

theorem foldlM_of_inner {ts : List Token} (h : ∀ t ∈ ts, t.Inner) (v : Verbosity) :
    ts.foldlM step v = .ok v := by
  induction ts with
  | nil => rfl
  | cons t ts ih =>
    obtain ⟨ht, hts⟩ := List.forall_mem_cons.mp h
    cases t with
    | start | close | flags => exact ht.elim
    | _ => exact ih hts

end Verbosity

/-! ### Steps and runs -/

namespace Lexer

variable {l k : Lexer} {c : Char} {cs ds : List Char} {ts us : List Token} {m : Mode}
  {v : Verbosity}

/-- The lexer behind a character that counts for nothing. -/
def passed (l : Lexer) (c : Char) : Lexer :=
  { l with mode := (l.mode.pass c).1, comment := if l.comment then c != '\n' else c == '#' }

theorem step_of_passes (h : l.passes c = true) :
    l.step c = .ok (l.passed c, (l.mode.pass c).2) :=
  if_pos h

theorem step_of_mode (h : l.passes c = false) (hm : l.mode.step c = .ok (m, ts))
    (hv : ts.foldlM Verbosity.step l.verbosity = .ok v) :
    l.step c = .ok ({ mode := m, verbosity := v }, ts) := by
  unfold step
  rw [if_neg (Bool.eq_false_iff.mp h)]
  exact bind_eq_ok_iff.mpr ⟨_, hm, bind_eq_ok_iff.mpr ⟨v, hv, rfl⟩⟩

/-- **Steps**: a character is passed over, or it is read where the lexer is. -/
theorem step_ok (h : l.step c = .ok (k, ts)) :
    (l.passes c = true ∧ k = l.passed c ∧ ts = (l.mode.pass c).2) ∨
      (l.passes c = false ∧ ∃ m v, l.mode.step c = .ok (m, ts) ∧
        ts.foldlM Verbosity.step l.verbosity = .ok v ∧ k = { mode := m, verbosity := v }) := by
  cases hp : l.passes c with
  | true =>
    rw [step_of_passes hp] at h
    cases h
    exact Or.inl ⟨rfl, rfl, rfl⟩
  | false =>
    unfold step at h
    rw [if_neg (Bool.eq_false_iff.mp hp)] at h
    obtain ⟨⟨m, us⟩, hm, hbehind⟩ := bind_eq_ok_iff.mp h
    obtain ⟨v, hv, heq⟩ := bind_eq_ok_iff.mp hbehind
    cases heq
    exact Or.inr ⟨rfl, m, v, hm, hv, rfl⟩

theorem run_cons_eq_ok_iff : l.run (c :: cs) = .ok (k, us) ↔
    ∃ l' ts ts', l.step c = .ok (l', ts) ∧ l'.run cs = .ok (k, ts') ∧ us = ts ++ ts' := by
  constructor
  · intro h
    obtain ⟨⟨l', ts⟩, hstep, hbehind⟩ := bind_eq_ok_iff.mp h
    obtain ⟨⟨k, ts'⟩, hrun, heq⟩ := bind_eq_ok_iff.mp hbehind
    cases heq
    exact ⟨l', ts, ts', hstep, hrun, rfl⟩
  · rintro ⟨l', ts, ts', hstep, hrun, rfl⟩
    exact bind_eq_ok_iff.mpr ⟨_, hstep, bind_eq_ok_iff.mpr ⟨_, hrun, rfl⟩⟩

/-- **Runs**: a text is read part by part. -/
theorem run_append_eq_ok_iff : l.run (cs ++ ds) = .ok (k, us) ↔
    ∃ l' ts ts', l.run cs = .ok (l', ts) ∧ l'.run ds = .ok (k, ts') ∧ us = ts ++ ts' := by
  induction cs generalizing l us with
  | nil =>
    constructor
    · exact fun h => ⟨l, [], us, rfl, h, rfl⟩
    · rintro ⟨_, _, _, heq, h, rfl⟩
      cases heq
      exact h
  | cons c cs ih =>
    rw [List.cons_append, run_cons_eq_ok_iff]
    constructor
    · rintro ⟨l₁, us₁, us₂, hstep, hrun, rfl⟩
      obtain ⟨l', ts, ts', hfirst, hlater, rfl⟩ := ih.mp hrun
      exact ⟨l', us₁ ++ ts, ts', run_cons_eq_ok_iff.mpr ⟨l₁, us₁, ts, hstep, hfirst, rfl⟩, hlater,
        (List.append_assoc _ _ _).symm⟩
    · rintro ⟨l', ts, ts', hfirst, hlater, rfl⟩
      obtain ⟨l₁, us₁, us₂, hstep, hrun, rfl⟩ := run_cons_eq_ok_iff.mp hfirst
      exact ⟨l₁, us₁, us₂ ++ ts', hstep, ih.mpr ⟨l', us₂, ts', hrun, hlater, rfl⟩,
        List.append_assoc _ _ _⟩

/-! ### Which blanks count -/

theorem foldlM_of_step (h : l.step c = .ok (k, ts)) :
    ts.foldlM Verbosity.step l.verbosity = .ok k.verbosity := by
  rcases step_ok h with ⟨-, rfl, rfl⟩ | ⟨-, m, v, -, hv, rfl⟩
  · exact Verbosity.foldlM_of_inner (l.mode.inner_of_pass c) l.verbosity
  · exact hv

/-- Whether blanks count behind a text, its tokens tell. -/
theorem foldlM_of_run (h : l.run cs = .ok (k, ts)) :
    ts.foldlM Verbosity.step l.verbosity = .ok k.verbosity := by
  induction cs generalizing l ts with
  | nil =>
    cases h
    rfl
  | cons c cs ih =>
    obtain ⟨l', ts, ts', hstep, hrun, rfl⟩ := run_cons_eq_ok_iff.mp h
    rw [List.foldlM_append, foldlM_of_step hstep]
    exact ih hrun

/-- How many groups are open behind a character, its tokens tell. -/
theorem nesting_of_step (h : l.step c = .ok (k, ts)) :
    nesting l.verbosity.around.length ts = some k.verbosity.around.length :=
  (Verbosity.nests false).nesting_eq (foldlM_of_step h)

/-- The same place inside one more group. -/
def inside (now : Bool) (l : Lexer) : Lexer := { l with verbosity := l.verbosity.inside now }

theorem step_inside_iff (now : Bool) {n : Nat}
    (hn : nesting l.verbosity.around.length ts = some n) :
    (l.inside now).step c = .ok (k, ts) ↔ ∃ l', l.step c = .ok (l', ts) ∧ k = l'.inside now := by
  have hfold : ts.foldlM Verbosity.step (l.verbosity.inside now) =
      (ts.foldlM Verbosity.step l.verbosity).map (Verbosity.inside now) :=
    (Verbosity.nests now).foldlM_inside hn
  constructor
  · intro h
    rcases step_ok h with ⟨hp, rfl, rfl⟩ | ⟨hp, m, v, hm, hv, rfl⟩
    · exact ⟨l.passed c, step_of_passes hp, rfl⟩
    · obtain ⟨w, hw, rfl⟩ := map_eq_ok_iff.mp (hfold.symm.trans hv)
      exact ⟨_, step_of_mode hp hm hw, rfl⟩
  · rintro ⟨l', h, rfl⟩
    rcases step_ok h with ⟨hp, rfl, rfl⟩ | ⟨hp, m, v, hm, hv, rfl⟩
    · exact step_of_passes (l := l.inside now) hp
    · refine step_of_mode (l := l.inside now) hp hm (hfold.trans ?_)
      rw [hv]
      rfl

/-- **One more group** around all others makes no difference to a text that does not close it. -/
theorem run_inside_iff (now : Bool) {n : Nat}
    (hn : nesting l.verbosity.around.length ts = some n) :
    (l.inside now).run cs = .ok (k, ts) ↔ ∃ l', l.run cs = .ok (l', ts) ∧ k = l'.inside now := by
  induction cs generalizing l ts with
  | nil =>
    constructor
    · intro h
      cases h
      exact ⟨l, rfl, rfl⟩
    · rintro ⟨l', h, rfl⟩
      cases h
      rfl
  | cons c cs ih =>
    simp only [run_cons_eq_ok_iff]
    constructor
    · rintro ⟨l₁, ts₁, ts₂, hstep, hrun, rfl⟩
      rw [nesting_append] at hn
      obtain ⟨between, hfirst, hlater⟩ := Option.bind_eq_some_iff.mp hn
      obtain ⟨l', hown, rfl⟩ := (step_inside_iff now hfirst).mp hstep
      obtain rfl : between = _ := Option.some.inj (hfirst.symm.trans (nesting_of_step hown))
      obtain ⟨k', hrest, rfl⟩ := (ih hlater).mp hrun
      exact ⟨k', ⟨l', ts₁, ts₂, hown, hrest, rfl⟩, rfl⟩
    · rintro ⟨k', ⟨l', ts₁, ts₂, hown, hrest, rfl⟩, rfl⟩
      have hfirst := nesting_of_step hown
      rw [nesting_append, hfirst] at hn
      exact ⟨l'.inside now, ts₁, ts₂, (step_inside_iff now hfirst).mpr ⟨l', hown, rfl⟩,
        (ih hn).mpr ⟨k', hrest, rfl⟩, rfl⟩

end Lexer

theorem tokens_eq_ok_iff {cs : List Char} {ts : List Token} : tokens cs = .ok ts ↔
    ∃ l us us', Lexer.run {} cs = .ok (l, us) ∧ l.mode.finish = .ok us' ∧ ts = us ++ us' := by
  constructor
  · intro h
    obtain ⟨⟨l, us⟩, hrun, hbehind⟩ := bind_eq_ok_iff.mp h
    obtain ⟨us', hfinish, heq⟩ := bind_eq_ok_iff.mp hbehind
    cases heq
    exact ⟨l, us, us', hrun, hfinish, rfl⟩
  · rintro ⟨l, us, us', hrun, hfinish, rfl⟩
    exact bind_eq_ok_iff.mpr ⟨_, hrun, bind_eq_ok_iff.mpr ⟨_, hfinish, rfl⟩⟩

/-! ### What each step keeps -/

namespace Lexer

/-- A comment counts for nothing, and what waits for a question mark is in order. -/
structure Sound (l : Lexer) : Prop where
  now_eq : l.comment = true → l.verbosity.now = true
  inOrder : l.mode.InOrder

variable {l k : Lexer} {c : Char} {cs : List Char} {ts : List Token}

theorem Sound.step (hl : l.Sound) (h : l.step c = .ok (k, ts)) :
    k.Sound ∧ ∀ t ∈ ts, t.InOrder := by
  rcases step_ok h with ⟨hp, rfl, rfl⟩ | ⟨-, m, v, hm, -, rfl⟩
  · have hnow : l.verbosity.now = true := by
      unfold passes at hp
      cases hcomment : l.comment with
      | true => exact hl.now_eq hcomment
      | false =>
        simp only [hcomment, Bool.false_or, Bool.and_eq_true] at hp
        exact hp.1.1
    obtain ⟨hpass, hts⟩ := hl.inOrder.pass c
    exact ⟨⟨fun _ => hnow, hpass⟩, hts⟩
  · obtain ⟨hm', hts⟩ := hl.inOrder.step hm
    exact ⟨⟨nofun, hm'⟩, hts⟩

theorem Sound.run (hl : l.Sound) (h : l.run cs = .ok (k, ts)) : k.Sound ∧ ∀ t ∈ ts, t.InOrder := by
  induction cs generalizing l ts with
  | nil =>
    cases h
    exact ⟨hl, List.forall_mem_nil _⟩
  | cons c cs ih =>
    obtain ⟨l', ts, ts', hstep, hrun, rfl⟩ := run_cons_eq_ok_iff.mp h
    obtain ⟨hl', hts⟩ := hl.step hstep
    obtain ⟨hk, hts'⟩ := ih hl' hrun
    exact ⟨hk, List.forall_mem_append.mpr ⟨hts, hts'⟩⟩

theorem sound_start (v : Verbosity) : Sound { verbosity := v } := ⟨nofun, List.forall_mem_nil _⟩

end Lexer

theorem inOrder_of_tokens {cs : List Char} {ts : List Token} (h : tokens cs = .ok ts) :
    ∀ t ∈ ts, t.InOrder := by
  obtain ⟨l, us, us', hrun, hfinish, rfl⟩ := tokens_eq_ok_iff.mp h
  obtain ⟨hl, hus⟩ := (Lexer.sound_start {}).run hrun
  obtain ⟨rfl, -⟩ := Mode.finish_ok hfinish
  exact List.forall_mem_append.mpr ⟨hus, hl.inOrder⟩

end CommandConsole.Pattern

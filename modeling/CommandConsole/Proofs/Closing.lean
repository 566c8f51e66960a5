import CommandConsole.Proofs.Tokens

/-!
# CommandConsole.Proofs.Closing — the tokens of a text that is pasted between the ends of a line

A text is put into a group of its own between the start and the end of a line. Where it could end,
the parenthesis behind it closes this group; elsewhere it belongs to a token of the text. In a
comment it counts for nothing, and the group stays open.

* `opening`, `closing`: what is put before a text, and behind it.
* `Lexer.run_closing`: what is read behind a text.
* `tokens_pasted`, `tokens_of_pasted`: the tokens of a pasted text and of the text alone.
-/

namespace CommandConsole.Pattern

/-- The characters that are put before a pattern, and behind it. -/
def opening : List Char := ['^', '(', '?', ':']

@[inherit_doc opening]
def closing : List Char := [')', '$']

/-- The tokens of these characters. -/
def openers : List Token := [.atom (.place .lineStart), .start (.plain [])]

@[inherit_doc openers]
def closers : List Token := [.close, .atom (.place .lineEnd)]

/-! ### The characters behind a text -/

namespace Lexer

variable {l k : Lexer} {ts us : List Token}

theorem passes_closing (hl : l.comment = false) : l.passes ')' = false ∧ l.passes '$' = false := by
  have hparen : (Text.isBlank ')' || ')' == '#') = false := by decide
  have hsign : (Text.isBlank '$' || '$' == '#') = false := by decide
  unfold passes
  rw [hl, hparen, hsign]
  simp

/-- The two characters behind a text that could end here. -/
theorem run_closing_of_finish (hl : l.comment = false) (h : l.mode.finish = .ok ts)
    {around : List Bool} {now : Bool} (hv : l.verbosity.around = now :: around) :
    l.run closing = .ok ({ verbosity := { now, around } }, ts ++ closers) := by
  obtain ⟨hparen, -⟩ := passes_closing hl
  obtain ⟨-, hinner⟩ := Mode.finish_ok h
  have hstep : l.step ')' = .ok ({ verbosity := { now, around } }, ts ++ [.close]) := by
    refine step_of_mode hparen (Mode.step_paren_of_finish h) ?_
    rw [List.foldlM_append, Verbosity.foldlM_of_inner hinner]
    obtain ⟨m, comment, now', around'⟩ := l
    cases hv
    rfl
  refine run_cons_eq_ok_iff.mpr ⟨_, _, [.atom (.place .lineEnd)], hstep, ?_, ?_⟩
  · refine run_cons_eq_ok_iff.mpr ⟨_, _, [], step_of_mode ?_ rfl rfl, rfl, rfl⟩
    exact (passes_closing rfl).2
  · rw [List.append_assoc]
    rfl

/-- The two characters are tokens of their own where the text could end, and where a group has just
been opened. Otherwise the first of them belongs to a token of the text. -/
theorem run_closing (hl : l.comment = false) (h : l.run closing = .ok (k, ts))
    (hk : k.mode.finish = .ok us) :
    (ts ++ us = l.mode.pending ++ closers ∧
      (l.mode = .opened ∨ l.mode.finish = .ok l.mode.pending)) ∨
      ∃ t, t ≠ .close ∧ ts ++ us = [t, .atom (.place .lineEnd)] := by
  obtain ⟨l', ts₁, ts₂, hstep, hlater, rfl⟩ := run_cons_eq_ok_iff.mp h
  obtain ⟨k', ts₃, ts₄, hstep', hnil, rfl⟩ := run_cons_eq_ok_iff.mp hlater
  cases hnil
  rcases step_ok hstep with ⟨hp, -, -⟩ | ⟨-, m, v, hm, -, rfl⟩
  · rw [(passes_closing hl).1] at hp
    cases hp
  rcases step_ok hstep' with ⟨hp, -, -⟩ | ⟨-, m', v', hm', -, rfl⟩
  · rw [(passes_closing rfl).2] at hp
    cases hp
  rcases Mode.step_paren hm with ⟨rfl, rfl, hmode⟩ | ⟨t, ht, rfl, rfl⟩ | hunclosed
  · cases hm'
    cases hk
    refine Or.inl ⟨?_, hmode⟩
    simp [closers]
  · cases hm'
    cases hk
    exact Or.inr ⟨t, ht, rfl⟩
  · exact absurd hk (hunclosed _ _ hm' us)

/-- In a comment they count for nothing. -/
theorem run_closing_of_comment (hl : l.comment = true) (h : l.run closing = .ok (k, ts)) :
    k.verbosity = l.verbosity := by
  obtain ⟨l', ts₁, ts₂, hstep, hlater, rfl⟩ := run_cons_eq_ok_iff.mp h
  obtain ⟨k', ts₃, ts₄, hstep', hnil, rfl⟩ := run_cons_eq_ok_iff.mp hlater
  cases hnil
  rw [step_of_passes (by simp [passes, hl])] at hstep
  cases hstep
  rw [step_of_passes (by simp [passes, passed, hl])] at hstep'
  cases hstep'
  rfl

end Lexer

/-! ### The tokens of a pasted text -/

section Tokens

variable {cs : List Char} {ts us : List Token}

/-- Behind the characters before it, a text is read inside one more group. -/
theorem tokens_pasted_ok (h : tokens (opening ++ (cs ++ closing)) = .ok us) :
    ∃ l k ts₁ ts₂ ts₃, (Lexer.inside false {}).run cs = .ok (l, ts₁) ∧
      l.run closing = .ok (k, ts₂) ∧ k.mode.finish = .ok ts₃ ∧
      us = openers ++ (ts₁ ++ (ts₂ ++ ts₃)) ∧ us.foldlM Verbosity.step {} = .ok k.verbosity := by
  obtain ⟨k, _, ts₃, hrun, hfinish, rfl⟩ := tokens_eq_ok_iff.mp h
  have hfold := Lexer.foldlM_of_run hrun
  obtain ⟨l₀, _, _, hopening, hrest, rfl⟩ := Lexer.run_append_eq_ok_iff.mp hrun
  cases hopening
  obtain ⟨l, ts₁, ts₂, hown, hclosing, rfl⟩ := Lexer.run_append_eq_ok_iff.mp hrest
  refine ⟨l, k, ts₁, ts₂, ts₃, hown, hclosing, hfinish, by simp [openers], ?_⟩
  rw [List.foldlM_append, hfold]
  exact Verbosity.foldlM_of_inner (Mode.finish_ok hfinish).2 _

theorem nesting_append_of_inner (h : ∀ t ∈ us, t.Inner) (opened : Nat) :
    nesting opened (ts ++ us) = nesting opened ts := by
  rw [nesting_append]
  cases nesting opened ts with
  | none => rfl
  | some n => exact nesting_of_inner h n

/-- Behind the group that is put around a text, blanks count. -/
theorem now_of_enclosed (hts : nesting 0 ts = some 0) {v : Verbosity}
    (h : (openers ++ (ts ++ closers)).foldlM Verbosity.step {} = .ok v) : v.now = false := by
  have hopen : openers.foldlM Verbosity.step {} = .ok (Verbosity.inside false {}) := rfl
  rw [List.foldlM_append, hopen] at h
  obtain ⟨w, hw, hclose⟩ := bind_eq_ok_iff.mp ((List.foldlM_append).symm.trans h)
  have hinside := (Verbosity.nests false).foldlM_inside (s := ({} : Verbosity)) hts
  rw [hinside] at hw
  obtain ⟨w', hw', rfl⟩ := map_eq_ok_iff.mp hw
  have hlength := (Verbosity.nests false).opened_eq hw' hts
  obtain ⟨now, around⟩ := w'
  obtain rfl : around = [] := List.eq_nil_of_length_eq_zero hlength
  cases hclose
  rfl

/-- **Pasted texts**: what a text is cut into alone, it is cut into between the two characters on
either side, unless it ends in a comment and so leaves the group open that is put around it. -/
theorem tokens_pasted (h : tokens cs = .ok ts) (hts : nesting 0 ts = some 0)
    (h' : tokens (opening ++ (cs ++ closing)) = .ok us) (hus : nesting 0 us = some 0) :
    us = openers ++ (ts ++ closers) := by
  obtain ⟨l, ts₁, ts₂, hrun, hfinish, rfl⟩ := tokens_eq_ok_iff.mp h
  obtain ⟨-, hinner⟩ := Mode.finish_ok hfinish
  rw [nesting_append_of_inner hinner] at hts
  have haround : l.verbosity.around = [] := by
    have hfold := Lexer.foldlM_of_run hrun
    exact List.eq_nil_of_length_eq_zero ((Verbosity.nests false).opened_eq hfold hts)
  obtain ⟨l', k, us₁, us₂, us₃, hown, hclosing, hend, rfl, hfold⟩ := tokens_pasted_ok h'
  rw [(Lexer.run_inside_iff (l := {}) false hts).mpr ⟨l, hrun, rfl⟩] at hown
  cases hown
  cases hcomment : l.comment with
  | true =>
    -- the group is still open in the end
    rw [Lexer.run_closing_of_comment (l := l.inside false) hcomment hclosing] at hfold
    have hopen : (l.verbosity.around ++ [false]).length = 0 :=
      (Verbosity.nests false).opened_eq hfold hus
    simp at hopen
  | false =>
    have hinside : (l.inside false).verbosity.around = [false] := by
      show l.verbosity.around ++ [false] = _
      rw [haround]
      rfl
    rw [Lexer.run_closing_of_finish (l := l.inside false) hcomment hfinish hinside] at hclosing
    cases hclosing
    cases hend
    simp

/-- Where the two characters behind a text are tokens of their own, the tokens in front of them are
those of the text alone. -/
theorem tokens_of_pasted
    (h : tokens (opening ++ (cs ++ closing)) = .ok (openers ++ (ts ++ closers)))
    (hts : nesting 0 ts = some 0) : tokens cs = .ok ts := by
  obtain ⟨l, k, ts₁, ts₂, ts₃, hown, hclosing, hend, heq, hfold⟩ := tokens_pasted_ok h
  have hsplit : ts ++ closers = ts₁ ++ (ts₂ ++ ts₃) := List.append_cancel_left heq
  cases hcomment : l.comment with
  | true =>
    -- a comment only starts where blanks count for nothing, but behind the group they count
    have hnow := ((Lexer.sound_start _).run hown).1.now_eq hcomment
    rw [← Lexer.run_closing_of_comment hcomment hclosing, now_of_enclosed hts hfold] at hnow
    cases hnow
  | false =>
    rcases Lexer.run_closing hcomment hclosing hend with ⟨htail, hmode⟩ | ⟨t, ht, htail⟩
    · rw [htail, ← List.append_assoc] at hsplit
      obtain rfl := List.append_cancel_right hsplit
      rcases hmode with hopened | hfinish
      · -- a group that has just been opened is not closed by the text
        rw [hopened, nesting_append] at hts
        obtain ⟨n, -, hn⟩ := Option.bind_eq_some_iff.mp hts
        cases hn
      · obtain ⟨-, hinner⟩ := Mode.finish_ok hfinish
        rw [nesting_append_of_inner hinner] at hts
        obtain ⟨l', hrun, rfl⟩ := (Lexer.run_inside_iff (l := {}) false hts).mp hown
        exact tokens_eq_ok_iff.mpr ⟨l', ts₁, _, hrun, hfinish, rfl⟩
    · rw [htail] at hsplit
      obtain ⟨-, hlast⟩ := List.append_inj' hsplit rfl
      cases hlast
      exact absurd rfl ht

end Tokens

end CommandConsole.Pattern

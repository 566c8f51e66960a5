import CommandConsole.Proofs.Atomicity

/-!
# CommandConsole.Proofs.Independence — lines do not depend on what waits

What sequences wait for, and which ones are parked, makes no difference to a line that is entered:
only a request to delay reads the sequencer, and it reads no more of it than the ceiling. So a line
does the same whatever waits, and a delay is cut to the ceiling by itself, not together with those
before it.

* `Action.Timeless`: actions to which the sequencer makes no difference.
* `Sequencer.applied`: the amount that a request adds.
* `Console.Does.timeless_or`: every line does such an action, or asks for a delay.
* `Console.execute_independent`: a line entered with one sequencer and with another.
-/

namespace CommandConsole

variable {τ : Type} [Seconds τ]

/-! ### Actions that do not read the sequencer -/

/-- The action does the same with every sequencer, and leaves it as it is. -/
def Action.Timeless (c : Console τ) (a : Action τ Unit) : Prop :=
  ∀ s q, a.effect c (s.timed q) = ((a.effect c s).1, (a.effect c s).2.timed q)

theorem Action.Timeless.sequencer_eq {c : Console τ} {a : Action τ Unit} (h : a.Timeless c)
    (s : Session τ) : (a.effect c s).2.sequencer = s.sequencer := by
  have hown := congrArg (fun r => r.2.sequencer) (h s s.sequencer)
  exact hown

/-- An operation other than a request to delay is such an action. -/
theorem Action.timeless_doing (c : Console τ) {p : Primitive τ}
    (hp : ∀ amount, p ≠ .requestDelay amount) : (doing p).Timeless c := by
  intro s q
  -- both sessions are one without a sequencer, put under two
  have hother := p.apply_under c.config hp s.bare q ⟨q.parked, s.depth, s.log⟩
  have hown := p.apply_eq_under c.config hp s
  rw [effect_doing, effect_doing, hown]
  exact hother

omit [Seconds τ] in
theorem Session.reportFailure_timed (s : Session τ) (q : Sequencer τ) (outcome : Outcome) :
    (s.timed q).reportFailure outcome = (s.reportFailure outcome).timed q := by
  cases outcome <;> rfl

/-! ### Requests to delay -/

/-- The amount that a request adds to the countdown: no more than the ceiling. -/
def Sequencer.applied (q : Sequencer τ) (amount : τ) : τ :=
  if Seconds.exceeds amount q.ceiling then q.ceiling else amount

theorem Session.sequencer_requestDelay (s : Session τ) (amount : τ) :
    (s.requestDelay amount).sequencer =
      if Seconds.isPositive amount then
        { s.sequencer with
          remaining := Seconds.add s.sequencer.remaining (s.sequencer.applied amount) }
      else s.sequencer := by
  unfold requestDelay Sequencer.requestDelay Sequencer.applied
  cases hp : Seconds.isPositive amount with
  | false => rfl
  | true =>
    cases hx : Seconds.exceeds amount s.sequencer.ceiling <;> rfl

/-- Two sessions that differ in the sequencer differ in it and in the log after a request to delay,
provided that the ceilings are the same. -/
theorem Session.requestDelay_timed (s : Session τ) {q : Sequencer τ}
    (hq : q.ceiling = s.sequencer.ceiling) (amount : τ) :
    (s.timed q).requestDelay amount = { s.requestDelay amount with
      sequencer := ((s.timed q).requestDelay amount).sequencer
      log := ((s.timed q).requestDelay amount).log } := by
  unfold requestDelay Sequencer.requestDelay timed
  cases hp : Seconds.isPositive amount with
  | false => rfl
  | true =>
    dsimp only
    rw [hq]
    cases hx : Seconds.exceeds amount s.sequencer.ceiling <;> rfl

/-! ### Lines -/

namespace Console

open Builtins

variable {c : Console τ} {line : String} {s : Session τ} {a : Action τ Unit}

/-- The line is a delay, and this is the amount that it asks for. -/
def AsksFor (c : Console τ) (line : String) (amount : τ) : Prop :=
  ∃ values text, c.Invokes delayGrammar line values ∧ values[0]? = some text ∧
    Seconds.read? text = some amount

/-- A line asks for a delay, or the sequencer makes no difference to it. -/
theorem Does.timeless_or (h : c.Does line a) (hx : ∀ values, ¬ c.Invokes execGrammar line values) :
    a.Timeless c ∨ ∃ amount, c.AsksFor line amount ∧ a = .doing (.requestDelay amount) := by
  cases h with
  | blank | rejected => exact Or.inl fun _ _ => rfl
  | help text => exact Or.inl (Action.timeless_doing c nofun)
  | handler hinvokes _ hacts =>
    cases hacts with
    | missing | outOfRange | lists => exact Or.inl fun _ _ => rfl
    | performs hp => exact Or.inl (Action.timeless_doing c hp)
    | @delays text amount hg ht hr =>
      subst hg
      exact Or.inr ⟨amount, ⟨_, text, hinvokes, ht, hr⟩, rfl⟩
    | runs hg =>
      subst hg
      exact absurd hinvokes (hx _)

/-- **Independence**: a line that is not an alias and does not run `exec` does the same, when it is
entered, in two sessions that differ in the countdown and in what is parked only. It leaves what is
parked in both; and the countdowns too, unless it is a delay, in which case the same amount is added
to both, which is the ceiling if the line asks for more. -/
theorem execute_independent (hc : c.IsBuiltin) (s : Session τ) {q : Sequencer τ}
    (hq : q.ceiling = s.sequencer.ceiling) (hs : s.aliases.lookup line = none)
    (hx : ∀ values, ¬ c.Invokes execGrammar line values) : ∃ t u : Session τ,
      (∀ outcome v, c.Returns (.execute line) s outcome v ↔ outcome = .ok () ∧ v = t) ∧
      (∀ outcome v, c.Returns (.execute line) (s.timed q) outcome v ↔
        outcome = .ok () ∧ v = u) ∧
      u = { t with sequencer := u.sequencer, log := u.log } ∧
      t.sequencer.parked = s.sequencer.parked ∧ u.sequencer.parked = q.parked ∧
      (t.sequencer = s.sequencer ∧ u.sequencer = q ∨ ∃ amount, c.AsksFor line amount ∧
        Seconds.isPositive amount = true ∧
        let added := s.sequencer.applied amount
        t.sequencer = { s.sequencer with remaining := Seconds.add s.sequencer.remaining added } ∧
        u.sequencer = { q with remaining := Seconds.add q.remaining added }) := by
  obtain ⟨a, notes, hdoes, heffect⟩ := hc.exists_effect hx
  have entered {s : Session τ} (hs : s.aliases.lookup line = none) {outcome : Outcome}
      {t : Session τ} (he : a.effect c { s with log := notes ++ s.log } = (outcome, t)) :=
    (returns_execute.mpr ⟨rfl, outcome, t, heffect s hs _ _ he, rfl⟩).iff_of_returns
  have halias : (s.timed q).aliases.lookup line = none := hs
  let noted : Session τ := { s with log := notes ++ s.log }
  rcases hdoes.timeless_or hx with htimeless | ⟨amount, hasks, rfl⟩
  · have hother := htimeless noted q
    refine ⟨_, _, entered hs rfl, entered halias hother, ?_⟩
    rw [Session.reportFailure_timed, Session.sequencer_reportFailure, htimeless.sequencer_eq]
    exact ⟨rfl, rfl, rfl, Or.inl ⟨rfl, rfl⟩⟩
  · have hown := Action.effect_doing c (.requestDelay amount) noted
    have hother := Action.effect_doing c (.requestDelay amount) (noted.timed q)
    refine ⟨_, _, entered hs hown, entered halias hother, noted.requestDelay_timed hq amount, ?_⟩
    have hseq : (noted.requestDelay amount).sequencer = _ := noted.sequencer_requestDelay amount
    have hseq' : ((noted.timed q).requestDelay amount).sequencer = _ :=
      (noted.timed q).sequencer_requestDelay amount
    -- the ceilings are the same, so the request is cut to the same amount
    have happlied : (noted.timed q).sequencer.applied amount = s.sequencer.applied amount := by
      unfold Sequencer.applied
      rw [show (noted.timed q).sequencer.ceiling = s.sequencer.ceiling from hq]
    rw [happlied] at hseq'
    rw [Session.sequencer_reportFailure, Session.sequencer_reportFailure]
    simp only [hseq, hseq']
    cases hp : Seconds.isPositive amount with
    | false => exact ⟨rfl, rfl, Or.inl ⟨rfl, rfl⟩⟩
    | true => exact ⟨rfl, rfl, Or.inr ⟨amount, hasks, hp, rfl, rfl⟩⟩

/-- A delay above the ceiling, asked for while nothing waits and while a sequence does. -/
theorem execute_independent_delay :
    let c := exact Config.standard
    let s := Session.remembering c.config .empty
    let q : Sequencer Rat := { s.sequencer with remaining := 5, parked := [⟨["print 1"], 2⟩] }
    let line := "delay 70"
    q.ceiling = s.sequencer.ceiling ∧ s.aliases.lookup line = none ∧
      (∀ values, ¬ c.Invokes execGrammar line values) ∧
      ∃ t u, c.Returns (.execute line) s (.ok ()) t ∧
        c.Returns (.execute line) (s.timed q) (.ok ()) u ∧
        u = { t with sequencer := u.sequencer, log := u.log } ∧ u.output = t.output ∧
        t.output = [.line .warning "Delay of 70 is too much, clamping it to 59"] ∧
        t.sequencer.remaining = 59 ∧ u.sequencer.remaining = 64 ∧
        u.sequencer.parked = [⟨["print 1"], 2⟩] := by
  intro c s q line
  have halias : s.aliases.lookup line = none := by decide +kernel
  have hexec : ∀ values, ¬ c.Invokes execGrammar line values :=
    not_invokes_of_all (by decide +kernel)
  obtain ⟨t, u, ht, hu, hsame, -, hparked, -⟩ :=
    execute_independent (isBuiltin_exact Config.standard) s (q := q) rfl halias hexec
  have h : ∃ r ∈ c.perform 3 (.execute line) s, r.2.sequencer.remaining = 59 ∧
      r.2.output = [.line .warning "Delay of 70 is too much, clamping it to 59"] := by
    decide +kernel
  have h' : ∃ r ∈ c.perform 3 (.execute line) (s.timed q), r.2.sequencer.remaining = 64 := by
    decide +kernel
  obtain ⟨⟨_, _⟩, hr, hremaining, hout⟩ := h
  obtain ⟨⟨_, _⟩, hr', hremaining'⟩ := h'
  obtain ⟨-, rfl⟩ := (ht _ _).mp ⟨3, hr⟩
  obtain ⟨-, rfl⟩ := (hu _ _).mp ⟨3, hr'⟩
  refine ⟨rfl, halias, hexec, _, _, (ht _ _).mpr ⟨rfl, rfl⟩, (hu _ _).mpr ⟨rfl, rfl⟩, hsame, ?_,
    hout, hremaining, hremaining', hparked⟩
  rw [hsame]
  rfl

end Console

end CommandConsole

import CommandConsole.Proofs.Running

/-!
# CommandConsole.Proofs.Resumption — how time resumes what is parked

A tick takes sequences from the front of the queue, one by one, until none is left or sequences have
to wait again. What a sequence leaves parked goes in front of those behind it. An alias that nests
too deep ends the sequence that comes to it; the error is reported, and the queue behind it stays.

* `Console.Resumes`: what a tick does, sequence by sequence.
* `Console.exists_resumes`: what is due is resumed, each parked sequence at most once.
* `Console.IsBuiltin.exists_returns`: so every operation ends.
* `Console.IsBuiltin.resumes_of_tick`: every tick does what is said there.
* `Console.Resumes.unfolds`: unless aliases nest too deep, it is one run of the flat worklist.
-/

namespace CommandConsole

variable {τ : Type} [Seconds τ]

namespace Session

/-- Everything that is parked, as a flat list of work. -/
def work (s : Session τ) : List Entry := worklist s.sequencer.parked

/-- The session once time has passed. -/
def advance (s : Session τ) (e : Elapsed) : Session τ :=
  { s with sequencer := s.sequencer.advance e }

/-- The session in which a parked sequence is resumed. -/
def resuming (s : Session τ) (q : ParkedSequence) : Session τ :=
  { s with sequencer := { s.sequencer with parked := [] }, depth := q.depth }

/-- The session with sequences back in the queue, at the depth it had. -/
def putBack (s : Session τ) (behind : List ParkedSequence) (depth : Nat) : Session τ :=
  { s with sequencer := s.sequencer.restoreParked behind, depth }

end Session

/-- What happens while sequences are resumed. -/
inductive Event where
  /-- An entry is taken. -/
  | taken (e : Entry)
  /-- A sequence comes to an alias that nests too deep; this is parked behind the sequence. -/
  | aborted (e : ConsoleError) (behind : List ParkedSequence)

namespace Console

/-- How the sequences that are due are resumed, and what happens meanwhile. -/
inductive Resumes (c : Console τ) : Session τ → List Event → Session τ → Prop
  | settled {s : Session τ} :
      s.sequencer.parked = [] ∨ s.sequencer.isWaiting = true → Resumes c s [] s
  | ran {s t u : Session τ} {q : ParkedSequence} {behind : List ParkedSequence}
      {trace : List Entry} {events : List Event} :
      s.sequencer.isWaiting = false → s.sequencer.parked = q :: behind →
      c.Runs q.statements (s.resuming q) (.ok ()) t →
      c.Ends q.entries (s.resuming q) trace (.ok ()) t →
      Resumes c (t.putBack behind s.depth) events u →
      Resumes c s (trace.map .taken ++ events) u
  | aborted {s t u : Session τ} {q : ParkedSequence} {behind : List ParkedSequence}
      {trace : List Entry} {events : List Event} {e : ConsoleError} :
      s.sequencer.isWaiting = false → s.sequencer.parked = q :: behind →
      c.Runs q.statements (s.resuming q) (.error e) t →
      c.Ends q.entries (s.resuming q) trace (.error e) t →
      Resumes c ((t.report e).putBack behind s.depth) events u →
      Resumes c s (trace.map .taken ++ .aborted e behind :: events) u

variable {c : Console τ} {s t u : Session τ} {q : ParkedSequence} {behind : List ParkedSequence}
  {trace : List Entry} {events : List Event}

/-! ### What a resumed sequence leaves behind -/

/-- A resumed sequence leaves what it parked in front of the others. -/
theorem Ends.exists_putBack (hc : c.IsBuiltin)
    (h : c.Ends q.entries (s.resuming q) trace (.ok ()) t) (depth : Nat) : ∃ queue x,
      c.Unfolds q.entries (s.resuming q) trace (worklist queue) x ∧
      (queue = [] ∨ (t.putBack behind depth).sequencer.isWaiting = true) ∧
      (∀ r ∈ queue, r.statements ≠ []) ∧
      (t.putBack behind depth).sequencer.parked = queue ++ behind ∧
      (t.putBack behind depth).bare = x.bare := by
  obtain ⟨queue, x, rfl, hrun, hq, hne⟩ := h.exists_of_ok
  have hx : x.sequencer.parked = [] := hrun.parked_eq hc
  refine ⟨queue, x, hrun, hq, hne, ?_, rfl⟩
  show x.sequencer.parked ++ queue ++ behind = queue ++ behind
  rw [hx, List.nil_append]

theorem Ends.nonempty_putBack (hc : c.IsBuiltin)
    (h : c.Ends q.entries (s.resuming q) trace (.ok ()) t) (depth : Nat)
    (hb : ∀ r ∈ behind, r.statements ≠ []) :
    ∀ r ∈ (t.putBack behind depth).sequencer.parked, r.statements ≠ [] := by
  obtain ⟨queue, x, -, -, hne, hparked, -⟩ := h.exists_putBack hc depth
  intro r hr
  rw [hparked] at hr
  rcases List.mem_append.mp hr with hr | hr
  · exact hne r hr
  · exact hb r hr

/-- A sequence that comes to an alias nested too deep leaves nothing. -/
theorem Ends.parked_putBack (hc : c.IsBuiltin) {e : ConsoleError}
    (h : c.Ends q.entries (s.resuming q) trace (.error e) t) (depth : Nat) :
    ((t.report e).putBack behind depth).sequencer.parked = behind := by
  cases h with
  | refused hrun _ =>
    have ht : t.sequencer.parked = [] := hrun.parked_eq hc
    show t.sequencer.parked ++ behind = behind
    rw [ht, List.nil_append]

/-! ### Every operation ends -/

/-- The sequences that are due are resumed, at most so many of them, whatever the fuel. -/
def Drains (c : Console τ) (most : Nat) (s u : Session τ) : Prop :=
  ∃ fuel, resume (runStatements fun text => c.perform fuel (.dispatch text)) most s = some u

theorem Drains.settled (h : s.sequencer.parked = [] ∨ s.sequencer.isWaiting = true) (most : Nat) :
    c.Drains most s s := by
  have none : s.sequencer.popReady? = none := by
    unfold Sequencer.popReady?
    rcases h with h | h
    · rw [h]
      split <;> rfl
    · exact if_pos h
  refine ⟨0, ?_⟩
  cases most with
  | zero => exact if_pos (Option.isNone_iff_eq_none.mpr none)
  | succ most =>
    unfold resume
    rw [none]

theorem Drains.next (hw : s.sequencer.isWaiting = false) (hp : s.sequencer.parked = q :: behind)
    {outcome : Outcome} (hr : c.Runs q.statements (s.resuming q) outcome t) {most : Nat}
    (h : c.Drains most ((t.reportFailure outcome).putBack behind s.depth) u) :
    c.Drains (most + 1) s u := by
  obtain ⟨m, hm⟩ := hr.stable
  obtain ⟨n, hn⟩ := h
  have due : s.sequencer.popReady? = some (q, { s.sequencer with parked := behind }) := by
    unfold Sequencer.popReady?
    rw [if_neg (by simp [hw]), hp]
  have run := hm _ (Nat.le_max_left m n)
  have more : Extends (runStatements fun text => c.perform n (.dispatch text))
      (runStatements fun text => c.perform (max m n) (.dispatch text)) :=
    runStatements_extends fun text => perform_extends (Nat.le_max_right m n) (.dispatch text)
  have later := resume_extends more (Nat.le_refl most) _ hn
  refine ⟨max m n, ?_⟩
  unfold resume
  rw [due]
  dsimp only [Sequencer.takeParked]
  unfold Session.resuming at run
  rw [run]
  exact later

/-- A tick resumes what is due once time has passed. -/
theorem Drains.returns_tick {e : Elapsed} {most : Nat} (h : c.Drains most (s.advance e) u) :
    c.Returns (.tick e) s (.ok ()) u := by
  obtain ⟨fuel, hf⟩ := h
  have more : Extends (runStatements fun text => c.perform fuel (.dispatch text))
      (runStatements fun text => c.perform (max fuel most) (.dispatch text)) :=
    runStatements_extends fun text => perform_extends (Nat.le_max_left fuel most) (.dispatch text)
  have enough := resume_extends more (Nat.le_max_right fuel most) _ hf
  exact ⟨max fuel most + 1, Option.map_eq_some_iff.mpr ⟨u, enough, rfl⟩⟩

/-- Resuming what is due ends, and no more sequences are resumed than were parked. -/
theorem exists_resumes (hc : c.IsBuiltin) (s : Session τ) :
    ∃ events u, c.Drains s.sequencer.parked.length s u ∧ c.Resumes s events u := by
  -- a sequence that leaves something parked leaves the console waiting, so each is resumed once
  induction hp : s.sequencer.parked generalizing s with
  | nil => exact ⟨[], s, .settled (Or.inl hp) 0, .settled (Or.inl hp)⟩
  | cons q behind ih =>
    cases hw : s.sequencer.isWaiting with
    | true => exact ⟨[], s, .settled (Or.inr hw) _, .settled (Or.inr hw)⟩
    | false =>
      obtain ⟨outcome, t, hr, trace, hends⟩ := hc.exists_statements q.statements (s.resuming q)
      rcases hends.ok_or with rfl | ⟨name, rfl⟩
      · obtain ⟨queue, x, -, hq, -, hparked, -⟩ := hends.exists_putBack hc s.depth
        cases queue with
        | nil =>
          obtain ⟨events, u, hd, hu⟩ := ih (t.putBack behind s.depth) hparked
          exact ⟨_, u, .next hw hp hr hd, .ran hw hp hr hends hu⟩
        | cons r queue =>
          have hwait := hq.resolve_left (List.cons_ne_nil r queue)
          exact ⟨_, _, .next hw hp hr (.settled (Or.inr hwait) _),
            .ran hw hp hr hends (.settled (Or.inr hwait))⟩
      · obtain ⟨events, u, hd, hu⟩ := ih _ (hends.parked_putBack hc s.depth)
        exact ⟨_, u, .next hw hp hr hd, .aborted hw hp hr hends hu⟩

/-- Every tick ends. -/
theorem IsBuiltin.exists_tick (hc : c.IsBuiltin) (e : Elapsed) (s : Session τ) :
    ∃ events u, c.Returns (.tick e) s (.ok ()) u ∧ c.Resumes (s.advance e) events u := by
  obtain ⟨events, u, hd, hu⟩ := exists_resumes hc (s.advance e)
  exact ⟨events, u, hd.returns_tick, hu⟩

/-- Entering the composed line ends. -/
theorem IsBuiltin.exists_submit (hc : c.IsBuiltin) (s : Session τ) :
    ∃ outcome t, c.Returns .submit s outcome t := by
  cases hb : Text.isBlankText s.prompt.submit.1 with
  | true =>
    refine ⟨.ok (), { s with prompt := s.prompt.submit.2 }, 1, ?_⟩
    unfold perform submit
    exact if_pos hb
  | false =>
    obtain ⟨outcome, t, ⟨fuel, hf⟩, -⟩ := hc.described s.prompt.submit.1
      ({ s with prompt := s.prompt.submit.2 }.print .highlight
        (c.config.prompt ++ s.prompt.submit.1))
    refine ⟨.ok (), t.reportFailure outcome, fuel + 1, ?_⟩
    unfold perform submit execute
    dsimp only
    rw [if_neg (by simp [hb]), hf]

/-- **Termination**: every operation ends. -/
theorem IsBuiltin.exists_returns (hc : c.IsBuiltin) (op : Op τ) (s : Session τ) :
    ∃ outcome t, c.Returns op s outcome t := by
  cases op with
  | primitive p => exact ⟨_, _, returns_primitive.mpr rfl⟩
  | dispatch line =>
    obtain ⟨outcome, t, hr, -⟩ := hc.described line s
    exact ⟨outcome, t, hr⟩
  | execute line =>
    obtain ⟨outcome, t, hr, -⟩ := hc.described line s
    exact ⟨_, _, returns_execute.mpr ⟨rfl, outcome, t, hr, rfl⟩⟩
  | runSequence text =>
    obtain ⟨outcome, t, hr, -⟩ := hc.exists_statements (Text.statements text) s
    exact ⟨outcome, t, returns_runSequence.mpr hr⟩
  | tick e =>
    obtain ⟨-, u, hr, -⟩ := hc.exists_tick e s
    exact ⟨_, u, hr⟩
  | fire hook =>
    cases hh : s.hooks.command hook with
    | none => exact ⟨_, s, returns_fire.mpr ⟨rfl, by rw [hh]⟩⟩
    | some command =>
      obtain ⟨outcome, t, hr, -⟩ :=
        hc.exists_statements (Text.statements command) (firing hook command s)
      exact ⟨_, _, returns_fire.mpr ⟨rfl, by rw [hh]; exact ⟨outcome, t, hr, rfl⟩⟩⟩
  | submit => exact hc.exists_submit s

/-- **Ticks**: what a tick does. -/
theorem IsBuiltin.resumes_of_tick (hc : c.IsBuiltin) {e : Elapsed} {outcome : Outcome}
    (h : c.Returns (.tick e) s outcome u) :
    outcome = .ok () ∧ ∃ events, c.Resumes (s.advance e) events u := by
  obtain ⟨events, u', hr, hu⟩ := hc.exists_tick e s
  obtain ⟨rfl, rfl⟩ := hr.unique h
  exact ⟨rfl, events, hu⟩

/-! ### The queue after a tick -/

namespace Resumes

theorem settled_after (h : c.Resumes s events u) :
    u.sequencer.parked = [] ∨ u.sequencer.isWaiting = true := by
  induction h with
  | settled hs => exact hs
  | ran _ _ _ _ _ ih => exact ih
  | aborted _ _ _ _ _ ih => exact ih

theorem depth_eq (h : c.Resumes s events u) : u.depth = s.depth := by
  induction h with
  | settled => rfl
  | ran _ _ _ _ _ ih => exact ih
  | aborted _ _ _ _ _ ih => exact ih

/-- No sequence without statements is ever parked. -/
theorem nonempty_after (hc : c.IsBuiltin) (h : c.Resumes s events u)
    (hs : ∀ q ∈ s.sequencer.parked, q.statements ≠ []) :
    ∀ q ∈ u.sequencer.parked, q.statements ≠ [] := by
  induction h with
  | settled => exact hs
  | @ran s _ _ _ _ _ _ _ hp _ hends _ ih =>
    exact ih (hends.nonempty_putBack hc s.depth fun r hr => hs r (by simp [hp, hr]))
  | @aborted s _ _ q behind _ _ _ _ hp _ hends _ ih =>
    refine ih fun r hr => ?_
    rw [hends.parked_putBack hc s.depth] at hr
    exact hs r (by simp [hp, hr])

/-- **Flat work**: unless aliases nest too deep, a tick is one run of the whole queue as a flat list
of work. -/
theorem unfolds (hc : c.IsBuiltin) (h : c.Resumes s events u)
    (ha : ∀ e behind, .aborted e behind ∉ events) :
    ∃ trace t, c.Unfolds s.work s trace u.work t ∧ t.bare = u.bare := by
  induction h with
  | @settled s _ => exact ⟨[], s, .stop _ _, rfl⟩
  | @ran s t u q behind trace events _ hp _ hends _ ih =>
    obtain ⟨queue, x, hrun, -, -, hparked, hbare⟩ := hends.exists_putBack hc s.depth
    obtain ⟨trace', v, hlater, hv⟩ := ih fun e behind hm => ha e behind (by simp [hm])
    -- the sequence runs the same with the others behind it
    obtain ⟨y, hfirst, hy⟩ := hrun.of_bare_eq hc (show s.bare = (s.resuming q).bare from rfl)
    obtain ⟨z, hthen, hz⟩ := hlater.of_bare_eq hc (hy.trans hbare.symm)
    have hwork : (t.putBack behind s.depth).work = worklist queue ++ worklist behind := by
      rw [Session.work, hparked, worklist_append]
    rw [hwork] at hthen
    refine ⟨trace ++ trace', z, ?_, hz.trans hv⟩
    rw [Session.work, hp, worklist_cons]
    exact (hfirst.append (worklist behind)).trans hthen
  | @aborted _ _ _ _ behind _ _ e _ _ _ _ _ _ => exact absurd (by simp) (ha e behind)

end Resumes

end Console

end CommandConsole

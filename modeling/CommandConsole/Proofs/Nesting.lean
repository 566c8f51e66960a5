import CommandConsole.Proofs.Refinement

/-!
# CommandConsole.Proofs.Nesting — aliases that nest too deep

Within one call an alias that nests too deep ends the whole run: what stands before it has run, and
nothing behind it ever does. Once a delay has cut a run into parked sequences that is no longer so:
the sequence that comes to such an alias is ended, but those parked behind it, which hold the rest
of the enclosing levels, go on.

* `Console.Unfolds.exists_of_trace_eq`: a run at any entry that it takes.
* `Console.dispatch_recursionLimit`: what has happened when a line fails so.
* `Console.Ticks`: ticks one after another, with what happens in them.
* `Console.chain_ends_iff`: when such a failure ends everything that a line has started.
-/

namespace CommandConsole

variable {τ : Type} [Seconds τ]

namespace Console

variable {c : Console τ} {s t u : Session τ} {work rest trace : List Entry} {line name : String}
  {outcome : Outcome} {events : List Event} {q : ParkedSequence} {behind : List ParkedSequence}

/-! ### Within one call -/

/-- A run at an entry that it takes: what it did before, the step, and what it did then. -/
theorem Unfolds.exists_of_trace_eq (h : c.Unfolds work s trace rest t) {before after : List Entry}
    {e : Entry} (ht : trace = before ++ e :: after) : ∃ behind front x y,
      c.Unfolds work s before (e :: behind) x ∧ c.step e x = (.onto front, y) ∧
        c.Unfolds (front ++ behind) y after rest t := by
  induction h generalizing before with
  | stop => simp at ht
  | @step e' work front trace rest s y t hw hs hrun ih =>
    cases before with
    | nil =>
      obtain ⟨rfl, rfl⟩ := List.cons.inj ht
      exact ⟨work, front, s, y, .stop _ _, hs, hrun⟩
    | cons e'' before =>
      obtain ⟨rfl, htail⟩ := List.cons.inj ht
      obtain ⟨behind, front', x, z, hbefore, hstep, hafter⟩ := ih htail
      exact ⟨behind, front', x, z, .step hw hs hbefore, hstep, hafter⟩

/-- A statement that fails is reported once, and the run goes on behind it. -/
theorem IsBuiltin.step_of_failed (hc : c.IsBuiltin) {e : Entry} {err : ConsoleError}
    {front : List Entry} (hr : c.request e.statement s = (.ends (.error err), t))
    (hs : c.step e s = (.onto front, u)) :
    err.isRecursionLimit = false ∧ front = [] ∧ u = t.report err := by
  have hstep := step_ends hr
  rw [hs] at hstep
  cases hstep
  exact ⟨hc.goesOn_request hr err rfl, rfl, rfl⟩

/-- A line that fails at the limit has run until it came to an alias that is refused. -/
theorem Resting.unfolds_of_recursionLimit [LawfulSeconds τ] (hs : c.Resting s) (hc : c.IsBuiltin)
    {limit : Nat} (h : c.Returns (.dispatch line) s (.error (.recursionLimit name limit)) t) :
    limit = c.config.maxAliasDepth ∧
      ∃ trace rest, c.Unfolds [⟨line, 0⟩] s trace rest t ∧ c.Refused rest t name := by
  obtain ⟨trace, htaken⟩ := h.taken hc
  rw [caught_of_limit rfl, hs.depth_eq] at htaken
  dsimp only at htaken
  cases htaken with
  | refused hstep =>
    obtain ⟨-, -, hlimit, -⟩ := of_step_tooDeep (Prod.ext hstep rfl)
    exact absurd hlimit (Nat.not_le.mpr hs.limit_pos)
  | onto hstep hends =>
    cases hends with
    | refused hrun hrefused =>
      -- a delay asked for, before or in the call, would have parked the alias
      have hf := follows_of_step hstep hs.counts
      have hw : s.sequencer.isWaiting = false := by
        cases hw : s.sequencer.isWaiting with
        | false => rfl
        | true =>
          have hwt := (hrun.follows hf.1).isWaiting (hf.isWaiting hw)
          rw [hrefused.1] at hwt
          cases hwt
      have hwhole : c.Unfolds [⟨line, 0⟩] s (⟨line, 0⟩ :: _) _ t :=
        .step hw hstep (by rwa [List.append_nil])
      exact ⟨rfl, _, _, hwhole, hrefused⟩

/-- **The limit within one call.** A line that fails at the limit names the first alias that the
unfolding of the line comes to at the limit. The session is the one at that point: everything
before it has run, in which each failing statement was reported once, nothing behind it has, and the
queue and the countdown are untouched. Entering the line adds one line of output. -/
theorem dispatch_recursionLimit [LawfulSeconds τ] (hc : c.IsBuiltin) (hs : c.Reachable s)
    {limit : Nat} (h : c.Returns (.dispatch line) s (.error (.recursionLimit name limit)) t) :
    limit = c.config.maxAliasDepth ∧ ∃ trace statement dropped,
      c.Unfolds [⟨line, 0⟩] s trace (⟨statement, limit⟩ :: dropped) t ∧
      name = Text.trim statement ∧ (t.aliases.expand name).isSome ∧
      t.sequencer = s.sequencer ∧
      (∀ before e after, trace = before ++ e :: after → ∃ behind front x y,
        c.Unfolds [⟨line, 0⟩] s before (e :: behind) x ∧ c.step e x = (.onto front, y) ∧
        c.Unfolds (front ++ behind) y after (⟨statement, limit⟩ :: dropped) t ∧
        ∀ err z, c.request e.statement x = (.ends (.error err), z) →
          err.isRecursionLimit = false ∧ front = [] ∧ y = z.report err) ∧
      ∃ u, c.Returns (.execute line) s (.ok ()) u ∧
        u = t.report (.recursionLimit name limit) ∧
        u.output = t.output ++ [.line .error (ConsoleError.recursionLimit name limit).message] := by
  have hrest := hs.resting hc
  obtain ⟨rfl, trace, _, hrun, hw, ⟨statement, depth⟩, dropped, rfl, hstep⟩ :=
    hrest.unfolds_of_recursionLimit hc h
  obtain ⟨hname, halias, hge, -⟩ := of_step_tooDeep (Prod.ext hstep rfl)
  have hle : depth ≤ c.config.maxAliasDepth := by
    refine hrun.depth_le ?_ ⟨statement, depth⟩ (by simp)
    rw [List.forall_mem_singleton]
    exact Nat.zero_le _
  obtain rfl : depth = c.config.maxAliasDepth := Nat.le_antisymm hle hge
  have hseq : t.sequencer = s.sequencer :=
    (hrun.follows hrest.counts).2.resolve_right (by simp [hw])
  refine ⟨rfl, trace, statement, dropped, hrun, hname, halias, hseq, ?_, ?_⟩
  · intro before e after ht
    obtain ⟨behind, front, x, y, hbefore, hx, hafter⟩ := hrun.exists_of_trace_eq ht
    exact ⟨behind, front, x, y, hbefore, hx, hafter, fun err z hz => hc.step_of_failed hz hx⟩
  · refine ⟨_, returns_execute.mpr ⟨rfl, _, t, h, rfl⟩, rfl, ?_⟩
    exact List.reverse_cons

/-- An alias that runs itself shows what stands before it once for each level, and nothing behind
it. -/
theorem dispatch_recursionLimit_self :
    let c := exact { Config.standard with maxAliasDepth := 2 }
    let s := Session.remembering c.config (TextMap.empty.insert "loop" "print a; loop; print b")
    ∃ trace statement dropped t u,
      c.Returns (.dispatch "loop") s (.error (.recursionLimit "loop" 2)) t ∧
      c.Unfolds [⟨"loop", 0⟩] s trace (⟨statement, 2⟩ :: dropped) t ∧
      Text.trim statement = "loop" ∧ c.Returns (.execute "loop") s (.ok ()) u ∧ u.output =
        [.line .info "a", .line .info "a",
          .line .error (ConsoleError.recursionLimit "loop" 2).message] := by
  intro c s
  have hs : c.Reachable s := reachable_remembering rfl _
  have h : ∃ r ∈ c.perform 9 (.dispatch "loop") s, r.1 = .error (.recursionLimit "loop" 2) ∧
      r.2.output = [.line .info "a", .line .info "a"] := by
    decide +kernel
  obtain ⟨⟨_, t⟩, ht, rfl, hshown⟩ := h
  have hr : c.Returns (.dispatch "loop") s (.error (.recursionLimit "loop" 2)) t := ⟨9, ht⟩
  obtain ⟨-, trace, statement, dropped, hrun, hname, -, -, -, u, hu, -, hout⟩ :=
    dispatch_recursionLimit (isBuiltin_exact _) hs hr
  refine ⟨trace, statement, dropped, t, u, hr, hrun, hname.symm, hu, ?_⟩
  rw [hout, hshown]
  rfl

/-! ### After a delay -/

/-- Ticks one after another, and what happens in them. -/
inductive Ticks (c : Console τ) : Session τ → List Elapsed → List Event → Session τ → Prop
  | nil (s : Session τ) : Ticks c s [] [] s
  | cons {e : Elapsed} {es : List Elapsed} {s t u : Session τ} {events events' : List Event} :
      c.Returns (.tick e) s (.ok ()) t → c.Resumes (s.advance e) events t →
      Ticks c t es events' u → Ticks c s (e :: es) (events ++ events') u

theorem IsBuiltin.exists_ticks (hc : c.IsBuiltin) (es : List Elapsed) (s : Session τ) :
    ∃ events t, c.Ticks s es events t := by
  induction es generalizing s with
  | nil => exact ⟨[], s, .nil s⟩
  | cons e es ih =>
    obtain ⟨events, t, hr, ht⟩ := hc.exists_tick e s
    obtain ⟨events', u, hu⟩ := ih t
    exact ⟨events ++ events', u, .cons hr ht hu⟩

/-- With nothing parked, nothing happens. -/
theorem Resumes.of_parked_nil (h : c.Resumes s events u) (hp : s.sequencer.parked = []) :
    events = [] ∧ u = s := by
  cases h with
  | settled => exact ⟨rfl, rfl⟩
  | ran _ hp' => simp [hp] at hp'
  | aborted _ hp' => simp [hp] at hp'

theorem Ticks.of_parked_nil {es : List Elapsed} (h : c.Ticks s es events u)
    (hp : s.sequencer.parked = []) : events = [] := by
  induction h with
  | nil => rfl
  | @cons e _ s _ _ _ _ _ hu _ ih =>
    have hadvanced : (s.advance e).sequencer.parked = [] := hp
    obtain ⟨rfl, rfl⟩ := hu.of_parked_nil hadvanced
    exact ih hadvanced

/-- Work that runs takes its first entry, unless that is refused. -/
theorem Ends.head (h : c.Ends work s trace outcome t) (hw : s.sequencer.isWaiting = false)
    {e : Entry} {later : List Entry} (hwork : work = e :: later) :
    trace.head? = some e ∨ trace = [] ∧
      outcome = .error (.recursionLimit (Text.trim e.statement) c.config.maxAliasDepth) := by
  subst hwork
  cases h with
  | parked hrun hq _ =>
    generalize hrest : worklist _ = rest at hrun
    cases hrun with
    | stop =>
      rcases hq with rfl | hwait
      · cases hrest
      · rw [hw] at hwait
        cases hwait
    | step => exact Or.inl rfl
  | refused hrun hr =>
    cases hrun with
    | stop =>
      obtain ⟨-, e', rest, hwork, hs⟩ := hr
      cases hwork
      obtain ⟨rfl, -⟩ := of_step_tooDeep (Prod.ext hs rfl)
      exact Or.inr ⟨rfl, rfl⟩
    | step => exact Or.inl rfl

/-- The first thing that happens when a sequence is resumed is that its first statement is taken, or
is refused. -/
theorem Resumes.head (h : c.Resumes s events u) (hw : s.sequencer.isWaiting = false)
    (hp : s.sequencer.parked = q :: behind) (hn : q.statements ≠ []) :
    ∃ statement, q.statements.head? = some statement ∧
      (events.head? = some (.taken ⟨statement, q.depth⟩) ∨ events.head? = some
        (.aborted (.recursionLimit (Text.trim statement) c.config.maxAliasDepth) behind)) := by
  obtain ⟨statement, later, hq⟩ := List.exists_cons_of_ne_nil hn
  have hwork : q.entries = ⟨statement, q.depth⟩ :: entries later q.depth := by
    unfold ParkedSequence.entries
    rw [hq]
    rfl
  refine ⟨statement, by rw [hq]; rfl, ?_⟩
  cases h with
  | settled hs =>
    rcases hs with hnil | hwait
    · simp [hp] at hnil
    · rw [hw] at hwait
      cases hwait
  | ran _ hp' _ hends _ =>
    rw [hp] at hp'
    cases hp'
    rcases hends.head hw hwork with hhead | ⟨-, herr⟩
    · refine Or.inl ?_
      rw [List.head?_append, List.head?_map, hhead]
      rfl
    · cases herr
  | aborted _ hp' _ hends _ =>
    rw [hp] at hp'
    cases hp'
    rcases hends.head hw hwork with hhead | ⟨rfl, herr⟩
    · refine Or.inl ?_
      rw [List.head?_append, List.head?_map, hhead]
      rfl
    · cases herr
      exact Or.inr rfl

/-- An abort that happens while sequences are resumed is not in what a sequence does before. -/
theorem exists_of_taken_append {before after : List Event} {e : ConsoleError}
    (h : trace.map .taken ++ events = before ++ .aborted e behind :: after) :
    ∃ before', events = before' ++ .aborted e behind :: after := by
  induction trace generalizing before with
  | nil => exact ⟨before, h⟩
  | cons entry trace ih =>
    cases before with
    | nil => cases h
    | cons event before => exact ih (List.cons.inj h).2

/-- The rest of a tick, and the ticks after it. -/
def Continues (c : Console τ) (s : Session τ) (es : List Elapsed) (events : List Event)
    (u : Session τ) : Prop :=
  ∃ now later t, events = now ++ later ∧ c.Resumes s now t ∧ c.Ticks t es later u

/-- A sequence is ended once its error is reported, and the queue behind it is resumed. -/
theorem Resumes.after_aborted (hc : c.IsBuiltin) (h : c.Resumes s events u)
    (hn : ∀ q ∈ s.sequencer.parked, q.statements ≠ []) {before after : List Event}
    {e : ConsoleError} (he : events = before ++ .aborted e behind :: after) :
    (∀ q ∈ behind, q.statements ≠ []) ∧ ∃ name dropped x y,
      e = .recursionLimit name c.config.maxAliasDepth ∧ c.Refused dropped x name ∧
      y = (x.report e).putBack behind s.depth ∧ y.sequencer.parked = behind ∧
      c.Resumes y after u := by
  induction h generalizing before with
  | settled => simp at he
  | @ran s t u q queue trace events _ hp _ hends _ ih =>
    obtain ⟨before', hevents⟩ := exists_of_taken_append he
    have hqueue : ∀ r ∈ queue, r.statements ≠ [] := fun r hr => hn r (by simp [hp, hr])
    exact ih (hends.nonempty_putBack hc s.depth hqueue) hevents
  | @aborted s t u q queue trace events err _ hp _ hends hu ih =>
    have hparked : ((t.report err).putBack queue s.depth).sequencer.parked = queue :=
      hends.parked_putBack hc s.depth
    have hqueue : ∀ r ∈ queue, r.statements ≠ [] := fun r hr => hn r (by simp [hp, hr])
    obtain ⟨before', hevents⟩ := exists_of_taken_append he
    cases before' with
    | nil =>
      obtain ⟨heq, rfl⟩ := List.cons.inj hevents
      cases heq
      cases hends with
      | refused _ hr => exact ⟨hqueue, _, _, t, _, rfl, hr, rfl, hparked, hu⟩
    | cons event before' =>
      refine ih ?_ (List.cons.inj hevents).2
      rwa [hparked]

theorem Ticks.after_aborted [LawfulSeconds τ] (hc : c.IsBuiltin) (hs : c.Reachable s)
    {es : List Elapsed} (h : c.Ticks s es events u) {before after : List Event} {e : ConsoleError}
    (he : events = before ++ .aborted e behind :: after) :
    (∀ q ∈ behind, q.statements ≠ []) ∧ ∃ name dropped x y es',
      e = .recursionLimit name c.config.maxAliasDepth ∧ c.Refused dropped x name ∧
      y = (x.report e).putBack behind 0 ∧ y.sequencer.parked = behind ∧
      c.Continues y es' after u := by
  induction h generalizing before with
  | nil => simp at he
  | @cons elapsed es s t u now later hr hnow hlater ih =>
    have hrest := hs.resting hc
    -- the sequence is ended in a later tick, or in this one
    rcases List.append_eq_append_iff.mp he with ⟨middle, -, hlater'⟩ | ⟨middle, hnow', hmiddle⟩
    · exact ih (hs.after hr) hlater'
    · cases middle with
      | nil =>
        have hlater' : later = [] ++ .aborted e behind :: after := hmiddle.symm
        exact ih (hs.after hr) hlater'
      | cons event middle =>
        obtain ⟨rfl, rfl⟩ := List.cons.inj hmiddle
        obtain ⟨hn, name, dropped, x, y, hname, hx, hy, hp, hu⟩ :=
          hnow.after_aborted hc hrest.nonempty hnow'
        have hdepth : (s.advance elapsed).depth = 0 := hrest.depth_eq
        rw [hdepth] at hy
        exact ⟨hn, name, dropped, x, y, es, hname, hx, hy, hp, middle, later, t, rfl, hu, hlater⟩

namespace Continues

variable {es : List Elapsed} (h : c.Continues s es events u)

include h

theorem of_parked_nil (hp : s.sequencer.parked = []) : events = [] := by
  obtain ⟨now, later, t, rfl, hnow, hlater⟩ := h
  obtain ⟨rfl, rfl⟩ := hnow.of_parked_nil hp
  exact hlater.of_parked_nil hp

theorem head (hw : s.sequencer.isWaiting = false) (hp : s.sequencer.parked = q :: behind)
    (hn : q.statements ≠ []) : ∃ statement, q.statements.head? = some statement ∧
      (events.head? = some (.taken ⟨statement, q.depth⟩) ∨ events.head? = some
        (.aborted (.recursionLimit (Text.trim statement) c.config.maxAliasDepth) behind)) := by
  obtain ⟨now, later, t, rfl, hnow, -⟩ := h
  obtain ⟨statement, hstatement, hhead⟩ := hnow.head hw hp hn
  refine ⟨statement, hstatement, ?_⟩
  rcases hhead with hhead | hhead
  · rw [List.head?_append, hhead]
    exact Or.inl rfl
  · rw [List.head?_append, hhead]
    exact Or.inr rfl

end Continues

/-- **The limit after a delay.** Whatever line started what is parked, and however time goes on: a
sequence that comes to an alias nested too deep is ended, and that is reported once. Then nothing
more happens if nothing is parked behind it, and only then: otherwise the next thing to happen is
that the first statement behind it is taken, or ended in turn. With nothing waiting before the line,
all of this is the line's own. -/
theorem chain_ends_iff [LawfulSeconds τ] (hc : c.IsBuiltin) (hs : c.Reachable s)
    (h : c.Returns (.execute line) s outcome t) (es : List Elapsed) :
    (s.sequencer.isWaiting = false → s.work = []) ∧ (∃ events u, c.Ticks t es events u) ∧
      ∀ events u, c.Ticks t es events u → ∀ before e behind after,
        events = before ++ .aborted e behind :: after →
        (after = [] ↔ behind = []) ∧
        (∃ name dropped x es', e = .recursionLimit name c.config.maxAliasDepth ∧
          c.Refused dropped x name ∧ c.Continues ((x.report e).putBack behind 0) es' after u) ∧
        ∀ q later, behind = q :: later → ∃ statement, q.statements.head? = some statement ∧
          (after.head? = some (.taken ⟨statement, q.depth⟩) ∨ after.head? = some
            (.aborted (.recursionLimit (Text.trim statement) c.config.maxAliasDepth) later)) := by
  refine ⟨(hs.resting hc).work_eq_nil, hc.exists_ticks es t, ?_⟩
  intro events u hu before e behind after he
  obtain ⟨hn, name, dropped, x, _, es', hname, hx, rfl, hp, hrest⟩ :=
    hu.after_aborted hc (hs.after h) he
  have next {q : ParkedSequence} {later : List ParkedSequence} (hb : behind = q :: later) :=
    hrest.head hx.1 (hp.trans hb) (hn q (by simp [hb]))
  refine ⟨?_, ⟨name, dropped, x, es', hname, hx, hrest⟩, fun q later hb => next hb⟩
  constructor
  · rintro rfl
    cases behind with
    | nil => rfl
    | cons q later =>
      obtain ⟨_, -, hhead⟩ := next rfl
      simp at hhead
  · exact fun hb => hrest.of_parked_nil (hp.trans hb)

/-- A delay in an inner alias parks the rest of both aliases. The rest of the inner one comes to an
alias nested too deep, and what the outer one still has to run goes on. -/
theorem chain_goes_on :
    let c := exact { Config.standard with maxAliasDepth := 2 }
    let s := Session.remembering c.config (((TextMap.empty.insert "a" "b; print A").insert
      "b" "delay 1; c; print B").insert "c" "print C")
    ∃ t events u before e after, c.Returns (.execute "a") s (.ok ()) t ∧
      c.Ticks t [⟨1, 0⟩] events u ∧ events = before ++ .aborted e [⟨["print A"], 1⟩] :: after ∧
      after ≠ [] ∧ u.output =
        [.line .error (ConsoleError.recursionLimit "c" 2).message, .line .info "A"] := by
  intro c s
  have hs : c.Reachable s := reachable_remembering rfl _
  let inner : ParkedSequence := ⟨["c", "print B"], 2⟩
  let outer : ParkedSequence := ⟨["print A"], 1⟩
  let resumed (x : Session Rat) := runStatements (fun text => c.perform 9 (.dispatch text))
    inner.statements ((x.advance ⟨1, 0⟩).resuming inner)
  have h : ∃ r ∈ c.perform 9 (.execute "a") s, r.1 = .ok () ∧
      r.2.sequencer.parked = [inner, outer] ∧ (r.2.advance ⟨1, 0⟩).sequencer.isWaiting = false ∧
      (∃ x ∈ resumed r.2, x.1 = .error (.recursionLimit "c" 2)) ∧
      ∃ x ∈ c.perform 9 (.tick ⟨1, 0⟩) r.2, x.2.output =
        [.line .error (ConsoleError.recursionLimit "c" 2).message, .line .info "A"] := by
    decide +kernel
  obtain ⟨⟨_, t⟩, ht, rfl, hp, hw, ⟨⟨_, x⟩, hinner, rfl⟩, ⟨_, v⟩, htick, hout⟩ := h
  have hr : c.Returns (.execute "a") s (.ok ()) t := ⟨9, ht⟩
  obtain ⟨-, ⟨events, u, hu⟩, hlimit⟩ := chain_ends_iff (isBuiltin_exact _) hs hr [⟨1, 0⟩]
  rcases hu with _ | ⟨hreturns, hresumes, hnil⟩
  cases hnil
  obtain ⟨-, rfl⟩ := hreturns.unique ⟨9, htick⟩
  have hu := Ticks.cons hreturns hresumes (.nil _)
  cases hresumes with
  | settled hsettled =>
    rcases hsettled with hnil | hwait
    · exact absurd (hp.symm.trans hnil) (List.cons_ne_nil _ _)
    · rw [hw] at hwait
      cases hwait
  | ran _ hp' hruns =>
    obtain ⟨rfl, rfl⟩ := List.cons.inj (hp.symm.trans hp')
    obtain ⟨herr, -⟩ := Runs.unique hruns ⟨9, hinner⟩
    cases herr
  | @aborted _ _ _ _ _ trace later e _ hp' =>
    obtain ⟨rfl, rfl⟩ := List.cons.inj (hp.symm.trans hp')
    obtain ⟨hends, -⟩ := hlimit _ _ hu _ _ _ _ (List.append_nil _)
    exact ⟨t, _, _, _, e, later, hr, hu, List.append_nil _,
      fun hnil => List.cons_ne_nil _ _ (hends.mp hnil), hout⟩

end Console

end CommandConsole

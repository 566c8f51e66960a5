import CommandConsole.Proofs.Reachable

/-!
# CommandConsole.Proofs.Refinement — the console is a flat worklist

The whole queue, read front to back, is one flat list of work, and every call of the host is one
move of a machine that has nothing else: time works the list off from the front, and what is entered
while sequences wait goes behind everything else. So nothing is lost, doubled or put out of order,
whatever the order of calls.

* `Console.Moves`: the moves of the machine, for lines, hooks and ticks.
* `Console.Exceeds`: calls in which an alias nests too deep; every other call is a move.
* `Console.refines_worklist`: every sequence of such calls is one of moves.
-/

namespace CommandConsole

variable {τ : Type} [Seconds τ]

/-- What a user can give the console to run. -/
inductive Input where
  | line (text : String)
  | hook (event : LifecycleHook)
deriving DecidableEq, Repr

/-- The operation that runs an input. -/
def Input.op : Input → Op τ
  | line text => .execute text
  | hook event => .fire event

/-- What a host calls while a console runs. -/
inductive Call where
  | input (i : Input)
  | tick (e : Elapsed)
deriving DecidableEq, Repr

/-- The operation that a host calls. -/
def Call.op : Call → Op τ
  | input i => i.op
  | tick e => .tick e

namespace Console

/-! ### The machine -/

/-- What comes of an input at once: the work it opens, and the session then. A line is taken as an
entry is; the statements of a hook's command are on the level of the input. -/
inductive Opens (c : Console τ) (depth : Nat) :
    Input → Session τ → List Entry → Session τ → Prop
  | line {text : String} {s t : Session τ} {front : List Entry} :
      c.step ⟨text, depth⟩ s = (.onto front, t) → Opens c depth (.line text) s front t
  | hook {event : LifecycleHook} {command : String} {s : Session τ} :
      s.hooks.command event = some command →
      Opens c depth (.hook event) s (entries (Text.statements command) depth)
        (firing event command s)
  | unbound {event : LifecycleHook} {s : Session τ} :
      s.hooks.command event = none → Opens c depth (.hook event) s [] s

/-- A move of the machine, from work and a session to work and a session. The machine has neither a
queue nor a depth nor a log. -/
inductive Moves (c : Console τ) :
    Call → List Entry → Session τ → List Entry → Session τ → Prop
  /-- The counter is advanced, and work is taken off the front until nothing is left or sequences
  have to wait again. -/
  | tick {e : Elapsed} {work trace rest : List Entry} {s t : Session τ} :
      c.Unfolds work (s.advance e) trace rest t → Settled rest t →
      Moves c (.tick e) work s rest t.bare
  /-- What is opened while sequences wait goes to the end, and none of it runs. -/
  | queued {i : Input} {work front : List Entry} {s t : Session τ} :
      s.sequencer.isWaiting = true → c.Opens 0 i s front t →
      Moves c (.input i) work s (work ++ front) t.bare
  /-- What is opened otherwise runs, and there was no work before. -/
  | fresh {i : Input} {front trace rest : List Entry} {s t u : Session τ} :
      s.sequencer.isWaiting = false → c.Opens 0 i s front t → c.Unfolds front t trace rest u →
      Settled rest u → Moves c (.input i) [] s rest u.bare

/-- Moves one after another. -/
inductive MovesAll (c : Console τ) :
    List Call → List Entry → Session τ → List Entry → Session τ → Prop
  | nil (work : List Entry) (s : Session τ) : MovesAll c [] work s work s
  | cons {call : Call} {calls : List Call} {work work' work'' : List Entry} {s t u : Session τ} :
      c.Moves call work s work' t → MovesAll c calls work' t work'' u →
      MovesAll c (call :: calls) work s work'' u

/-! ### Calls -/

/-- Calls one after another. -/
inductive Serves (c : Console τ) : Session τ → List Call → Session τ → Prop
  | nil (s : Session τ) : Serves c s [] s
  | cons {call : Call} {calls : List Call} {s t u : Session τ} {outcome : Outcome} :
      c.Returns call.op s outcome t → Serves c t calls u → Serves c s (call :: calls) u

/-- While the sequences that are due are resumed, one of them comes to an alias that nests too
deep. -/
inductive ResumptionExceeds (c : Console τ) : Session τ → Prop
  | now {s t : Session τ} {q : ParkedSequence} {behind : List ParkedSequence} {e : ConsoleError} :
      s.sequencer.isWaiting = false → s.sequencer.parked = q :: behind →
      c.Runs q.statements (s.resuming q) (.error e) t → ResumptionExceeds c s
  | later {s t : Session τ} {q : ParkedSequence} {behind : List ParkedSequence}
      {outcome : Outcome} :
      s.sequencer.isWaiting = false → s.sequencer.parked = q :: behind →
      c.Runs q.statements (s.resuming q) outcome t →
      ResumptionExceeds c ((t.reportFailure outcome).putBack behind s.depth) →
      ResumptionExceeds c s

/-- An alias nests too deep while an input runs. -/
def InputExceeds (c : Console τ) (s : Session τ) : Input → Prop
  | .line text => ∃ e t, e.isRecursionLimit = true ∧ c.Returns (.dispatch text) s (.error e) t
  | .hook event => ∃ command e t, s.hooks.command event = some command ∧
      c.Runs (Text.statements command) (firing event command s) (.error e) t

/-- An alias nests too deep in a call. -/
def Exceeds (c : Console τ) (s : Session τ) : Call → Prop
  | .input i => c.InputExceeds s i
  | .tick e => c.ResumptionExceeds (s.advance e)

/-- Calls one after another, in none of which an alias nests too deep. -/
inductive ServesWithin (c : Console τ) : Session τ → List Call → Session τ → Prop
  | nil (s : Session τ) : ServesWithin c s [] s
  | cons {call : Call} {calls : List Call} {s t u : Session τ} {outcome : Outcome} :
      ¬ c.Exceeds s call → c.Returns call.op s outcome t → ServesWithin c t calls u →
      ServesWithin c s (call :: calls) u

variable {c : Console τ} {s t u : Session τ} {outcome : Outcome} {i : Input} {call : Call}
  {calls : List Call} {front trace : List Entry} {events : List Event} {depth : Nat}

/-- Where no alias nests too deep, no sequence is ended early. -/
theorem Resumes.exceeds (h : c.Resumes s events u) {e : ConsoleError}
    {behind : List ParkedSequence} (he : .aborted e behind ∈ events) : c.ResumptionExceeds s := by
  induction h with
  | settled => cases he
  | ran hw hp hr _ _ ih =>
    refine .later hw hp hr (ih ?_)
    rcases List.mem_append.mp he with he | he
    · obtain ⟨_, -, heq⟩ := List.mem_map.mp he
      cases heq
    · exact he
  | aborted hw hp hr _ _ _ => exact .now hw hp hr

/-! ### Opening -/

theorem Opens.parked_eq (hc : c.IsBuiltin) (h : c.Opens depth i s front t) :
    t.sequencer.parked = s.sequencer.parked := by
  cases h with
  | @line text _ _ _ hs => rw [← (hc.uniform_step ⟨text, depth⟩).parked_eq s, hs]
  | hook _ => rfl
  | unbound _ => rfl

/-- What an input opens does not depend on what surrounds it. -/
theorem Opens.exists_bare (hc : c.IsBuiltin) (h : c.Opens depth i s front t) :
    ∃ t', c.Opens depth i s.bare front t' ∧ t'.bare = t.bare := by
  cases h with
  | @line text _ _ _ hs =>
    have hu := hc.uniform_step ⟨text, depth⟩
    cases hx : c.step ⟨text, depth⟩ s.bare with
    | mk progress t' =>
      have hfst := hu.fst_bare s
      have hbare := hu.bare_snd_bare s
      rw [hx, hs] at hfst hbare
      obtain rfl : progress = .onto front := hfst
      exact ⟨t', .line hx, hbare⟩
  | hook hh => exact ⟨_, .hook hh, rfl⟩
  | unbound hh => exact ⟨_, .unbound hh, rfl⟩

theorem Opens.follows [LawfulSeconds τ] (h : c.Opens depth i s front t) (hs : s.sequencer.Counts) :
    s.sequencer.Follows t.sequencer := by
  cases h with
  | line hstep => exact follows_of_step hstep hs
  | hook _ => exact ⟨hs, Or.inl rfl⟩
  | unbound _ => exact ⟨hs, Or.inl rfl⟩

/-- An input in which no alias nests too deep opens work, which then ends well. -/
theorem exists_opens (hc : c.IsBuiltin) (hno : ¬ c.InputExceeds s i)
    (h : c.Returns i.op s outcome t) :
    ∃ front t' trace, c.Opens s.depth i s front t' ∧ c.Ends front t' trace (.ok ()) t := by
  cases i with
  | line text =>
    obtain ⟨-, outcome', u, hr, rfl⟩ := returns_execute.mp h
    have ho : GoesOn outcome' := by
      rcases goesOn_or outcome' with ho | ⟨e, rfl, he⟩
      · exact ho
      · exact absurd ⟨e, u, he, hr⟩ hno
    obtain ⟨trace, htaken⟩ := hr.taken hc
    rw [caught_of_goesOn ho] at htaken
    cases htaken with
    | onto hstep hends => exact ⟨_, _, _, .line hstep, hends⟩
  | hook event =>
    obtain ⟨-, hf⟩ := returns_fire.mp h
    cases hh : s.hooks.command event with
    | none =>
      rw [hh] at hf
      rw [hf]
      exact ⟨[], s, [], .unbound hh, .of_unfolds (.stop [] s)⟩
    | some command =>
      rw [hh] at hf
      obtain ⟨outcome', u, hr, rfl⟩ := hf
      obtain ⟨trace, hends⟩ := hr.ends hc
      rcases hends.ok_or with rfl | ⟨name, rfl⟩
      · exact ⟨_, _, _, .hook hh, hends⟩
      · exact absurd ⟨command, _, u, hh, hr⟩ hno

/-- An input in which an alias nests too deep is that alias, or it opens work that comes to it. -/
theorem exists_refused (hc : c.IsBuiltin) (h : c.InputExceeds s i) :
    (∃ text name, i = .line text ∧ (c.step ⟨text, s.depth⟩ s).1 = .tooDeep name) ∨
      ∃ front t trace rest u name, c.Opens s.depth i s front t ∧
        c.Unfolds front t trace rest u ∧ c.Refused rest u name := by
  cases i with
  | line text =>
    obtain ⟨e, t, he, hr⟩ := h
    obtain ⟨trace, htaken⟩ := hr.taken hc
    rw [caught_of_limit he] at htaken
    cases htaken with
    | refused hs => exact Or.inl ⟨text, _, rfl, hs⟩
    | onto hs hends =>
      cases hends with
      | refused hrun hr => exact Or.inr ⟨_, _, _, _, _, _, .line hs, hrun, hr⟩
  | hook event =>
    obtain ⟨command, e, t, hh, hr⟩ := h
    obtain ⟨trace, hends⟩ := hr.ends hc
    cases hends with
    | refused hrun hr => exact Or.inr ⟨_, _, _, _, _, _, .hook hh, hrun, hr⟩

/-! ### One call, one move -/

section Refines

variable [LawfulSeconds τ] (hc : c.IsBuiltin)

include hc

/-- What is opened runs, or goes to the end of the work if sequences wait. -/
theorem Resting.moves_of_opens (hs : c.Resting s) (ho : c.Opens 0 i s front t)
    (he : c.Ends front t trace (.ok ()) u) : c.Moves (.input i) s.work s.bare u.work u.bare := by
  obtain ⟨queue, x, rfl, hrun, hq, -⟩ := he.exists_of_ok
  obtain ⟨t', ho', ht'⟩ := ho.exists_bare hc
  have hparked : x.sequencer.parked = s.sequencer.parked :=
    (hrun.parked_eq hc).trans (ho.parked_eq hc)
  have hwork : (x.parkAll queue).work = s.work ++ worklist queue := by
    show worklist (x.sequencer.parked ++ queue) = _
    rw [worklist_append, hparked]
    rfl
  rw [hwork]
  cases hw : s.sequencer.isWaiting with
  | true =>
    -- what is opened does not stop the wait, so none of it runs
    have ht : t.sequencer.isWaiting = true := (ho.follows hs.counts).isWaiting hw
    obtain ⟨-, hrest, rfl⟩ := hrun.of_halts (Or.inl (Or.inr ht))
    rw [hrest]
    show c.Moves _ _ _ _ x.bare
    rw [← ht']
    exact .queued hw ho'
  | false =>
    -- with nothing to wait for there was no work before
    obtain ⟨x', hrun', hx'⟩ := hrun.of_bare_eq hc ht'
    have hsettled : Settled (worklist queue) x' := by
      rcases hq with rfl | hwait
      · exact Or.inl rfl
      · refine Or.inr ?_
        show x'.bare.sequencer.isWaiting = true
        rw [hx']
        exact hwait
    show c.Moves _ _ _ _ x.bare
    rw [hs.work_eq_nil hw, ← hx']
    exact .fresh hw ho' hrun' hsettled

/-- **One call, one move.** -/
theorem Resting.moves (hs : c.Resting s) (hno : ¬ c.Exceeds s call)
    (h : c.Returns call.op s outcome u) : c.Moves call s.work s.bare u.work u.bare := by
  cases call with
  | input i =>
    obtain ⟨front, t, trace, ho, he⟩ := exists_opens hc hno h
    rw [hs.depth_eq] at ho
    exact hs.moves_of_opens hc ho he
  | tick e =>
    obtain ⟨-, events, hu⟩ := hc.resumes_of_tick h
    -- no sequence is ended early, so the tick is one run of the flat work
    obtain ⟨trace, t, hrun, ht⟩ := hu.unfolds hc fun e' behind hm => hno (hu.exceeds hm)
    obtain ⟨t', hrun', ht'⟩ := hrun.of_bare_eq hc
      (show (s.bare.advance e).bare = (s.advance e).bare from rfl)
    have hsettled : Settled u.work t' := by
      rcases hu.settled_after with hnil | hwait
      · exact Or.inl (by rw [Session.work, hnil]; rfl)
      · refine Or.inr ?_
        show t'.bare.sequencer.isWaiting = true
        rw [ht', ht]
        exact hwait
    have hmove := Moves.tick hrun' hsettled
    rw [ht', ht] at hmove
    exact hmove

end Refines

/-- Outside of ticks work is only added behind the work there was. -/
theorem Moves.grows {work rest : List Entry} (h : c.Moves (.input i) work s rest t) :
    work <+: rest := by
  cases h with
  | queued _ _ => exact List.prefix_append _ _
  | fresh _ _ _ _ => exact List.nil_prefix

theorem MovesAll.grows {work rest : List Entry} (h : c.MovesAll calls work s rest t)
    (hn : ∀ e, .tick e ∉ calls) : work <+: rest := by
  induction h with
  | nil => exact List.prefix_rfl
  | @cons call _ _ _ _ _ _ _ hm _ ih =>
    have hlater := ih fun e he => hn e (List.mem_cons_of_mem _ he)
    cases call with
    | input i => exact hm.grows.trans hlater
    | tick e => exact absurd List.mem_cons_self (hn e)

/-- Every call of a host ends. -/
theorem IsBuiltin.exists_call (hc : c.IsBuiltin) (call : Call) (s : Session τ) :
    ∃ t, c.Returns call.op s (.ok ()) t := by
  obtain ⟨outcome, t, hr⟩ := hc.exists_returns call.op s
  cases call with
  | input i =>
    cases i with
    | line text =>
      obtain ⟨rfl, -⟩ := returns_execute.mp hr
      exact ⟨t, hr⟩
    | hook event =>
      obtain ⟨rfl, -⟩ := returns_fire.mp hr
      exact ⟨t, hr⟩
  | tick e =>
    obtain ⟨rfl, -⟩ := hc.resumes_of_tick hr
    exact ⟨t, hr⟩

/-- A host can make any calls in any order. -/
theorem IsBuiltin.exists_serves (hc : c.IsBuiltin) (calls : List Call) (s : Session τ) :
    ∃ t, c.Serves s calls t := by
  induction calls generalizing s with
  | nil => exact ⟨s, .nil s⟩
  | cons call calls ih =>
    obtain ⟨t, ht⟩ := hc.exists_call call s
    obtain ⟨u, hu⟩ := ih t
    exact ⟨u, .cons ht hu⟩

/-- **Refinement**: from every state, calls in which no alias nests too deep are moves of the flat
machine on the queue read as one list of work. Afterwards no parked sequence is empty, there is no
work unless sequences wait, work is only ever added at the end outside of ticks, and every further
call ends. -/
theorem refines_worklist [LawfulSeconds τ] (hc : c.IsBuiltin) (hs : c.Reachable s)
    (h : c.ServesWithin s calls t) :
    c.MovesAll calls s.work s.bare t.work t.bare ∧
      (∀ q ∈ t.sequencer.parked, q.statements ≠ []) ∧
      (t.sequencer.isWaiting = false → t.work = []) ∧
      ((∀ e, .tick e ∉ calls) → s.work <+: t.work) ∧
      ∀ call : Call, ∃ u, c.Returns call.op t (.ok ()) u := by
  have hmoves : c.MovesAll calls s.work s.bare t.work t.bare ∧ c.Reachable t := by
    induction h with
    | nil => exact ⟨.nil _ _, hs⟩
    | cons hno hr _ ih =>
      obtain ⟨hlater, ht⟩ := ih (hs.after hr)
      exact ⟨.cons ((hs.resting hc).moves hc hno hr) hlater, ht⟩
  have hrest : c.Resting t := hmoves.2.resting hc
  exact ⟨hmoves.1, hrest.nonempty, hrest.work_eq_nil, hmoves.1.grows,
    fun call => hc.exists_call call t⟩

/-- A line is parked half way and taken up by the next tick. -/
theorem refines_worklist_delayed :
    let c := exact Config.standard
    let s := Session.remembering c.config (TextMap.empty.insert "s" "print a; delay 2; print b")
    let calls := [Call.input (.line "s"), .tick ⟨2, 0⟩]
    ∃ t u, c.Returns (.execute "s") s (.ok ()) t ∧ t.work = [⟨"print b", 1⟩] ∧
      c.ServesWithin s calls u ∧ c.MovesAll calls [] s.bare [] u.bare ∧
      u.output = [.line .info "a", .line .info "b"] := by
  intro c s calls
  have hc : c.IsBuiltin := isBuiltin_exact _
  have hs : c.Reachable s := reachable_remembering rfl _
  let rest : ParkedSequence := ⟨["print b"], 1⟩
  let resumed (x : Session Rat) := runStatements (fun text => c.perform 9 (.dispatch text))
    rest.statements ((x.advance ⟨2, 0⟩).resuming rest)
  have h : ∃ r ∈ c.perform 9 (.dispatch "s") s, r.1 = .ok () ∧
      r.2.sequencer.parked = [rest] ∧
      (∃ x ∈ resumed r.2, x.1 = .ok () ∧ x.2.sequencer.parked = []) ∧
      ∃ x ∈ c.perform 9 (.tick ⟨2, 0⟩) r.2, x.2.output = [.line .info "a", .line .info "b"] ∧
        x.2.sequencer.parked = [] := by
    decide +kernel
  obtain ⟨⟨_, t⟩, ht, rfl, hp, ⟨⟨_, x⟩, hx, rfl, hxp⟩, ⟨_, u⟩, hu, hout, hup⟩ := h
  have hr : c.Returns (.execute "s") s (.ok ()) t :=
    returns_execute.mpr ⟨rfl, .ok (), t, ⟨9, ht⟩, rfl⟩
  have first : ¬ c.Exceeds s (.input (.line "s")) := by
    rintro ⟨e, t', -, hfailed⟩
    obtain ⟨herr, -⟩ := hfailed.unique ⟨9, ht⟩
    cases herr
  have second : ¬ c.Exceeds t (.tick ⟨2, 0⟩) := by
    intro hexceeds
    have hnone : (x.putBack [] (t.advance ⟨2, 0⟩).depth).sequencer.parked = [] := by
      show x.sequencer.parked ++ [] = []
      rw [hxp, List.append_nil]
    cases hexceeds with
    | now _ hp' hruns =>
      obtain ⟨rfl, rfl⟩ := List.cons.inj (hp.symm.trans hp')
      obtain ⟨herr, -⟩ := Runs.unique hruns ⟨9, hx⟩
      cases herr
    | later _ hp' hruns hlater =>
      obtain ⟨rfl, rfl⟩ := List.cons.inj (hp.symm.trans hp')
      obtain ⟨rfl, rfl⟩ := Runs.unique hruns ⟨9, hx⟩
      cases hlater with
      | now _ hp'' => exact List.cons_ne_nil _ _ (hp''.symm.trans hnone)
      | later _ hp'' => exact List.cons_ne_nil _ _ (hp''.symm.trans hnone)
  have hserves : c.ServesWithin s calls u := .cons first hr (.cons second ⟨9, hu⟩ (.nil u))
  obtain ⟨hmoves, -⟩ := refines_worklist hc hs hserves
  have hdone : u.work = [] := by
    rw [Session.work, hup]
    rfl
  rw [hdone] at hmoves
  refine ⟨t, u, hr, ?_, hserves, hmoves, hout⟩
  rw [Session.work, hp]
  rfl

end Console

end CommandConsole

import CommandConsole.Proofs.Resumption
import CommandConsole.Proofs.Time

/-!
# CommandConsole.Proofs.Reachable — states between operations

A console starts from what is saved, and then operations follow one another. Between them nothing
nests, no parked sequence is empty, and sequences are parked only while they have to wait.

* `Console.Reachable`: the sessions of a console between operations.
* `Console.Resting`: what holds of them.
* `Console.Reachable.resting`: it does hold, by one lemma for each kind of operation.
-/

namespace CommandConsole

variable {τ : Type} [Seconds τ]

/-! ### The start -/

theorem Config.of_check {config : Config τ} (h : config.check = .ok ()) :
    0 < config.maxAliasDepth ∧ Seconds.isPositive config.maxDelay = true := by
  unfold Config.check at h
  split at h
  · cases h
  · split at h
    · cases h
    · next hlimit =>
      split at h
      · cases h
      · next hceiling =>
        simp only [Seconds.isCeiling, Bool.not_eq_true', Bool.and_eq_false_iff, not_or] at hceiling
        exact ⟨Nat.pos_of_ne_zero hlimit, by simpa using hceiling.1⟩

omit [Seconds τ] in
theorem Session.sequencer_recordAll (s : Session τ) (lines : List LogLine) :
    (s.recordAll lines).sequencer = s.sequencer ∧ (s.recordAll lines).depth = s.depth := by
  induction lines generalizing s with
  | nil => exact ⟨rfl, rfl⟩
  | cons line lines ih => exact ih (s.record line)

/-- A session starts with nothing parked and nothing to wait for. -/
theorem Session.sequencer_ofSaved (config : Config τ) (store : Store) (state : SavedState) :
    (ofSaved config store state).sequencer = .start config.maxDelay ∧
      (ofSaved config store state).depth = 0 := by
  unfold ofSaved
  dsimp only
  rw [(sequencer_recordAll _ _).1, (sequencer_recordAll _ _).2]
  split <;> exact ⟨rfl, rfl⟩

/-- A session starts with valid settings and from a state that can be loaded. -/
theorem Session.start_eq_ok_iff {config : Config τ} {store : Store} {s : Session τ} :
    start config store = .ok s ↔ config.check = .ok () ∧ ∃ state, store.load.1 = .ok state ∧
      s = { ofSaved config store state with
        log := (ofSaved config store state).log ++ store.load.2.reverse } := by
  unfold start
  cases hcheck : config.check with
  | error fault => simp [Except.mapError, bind, Except.bind]
  | ok _ =>
    cases hloaded : store.load.1 with
    | error e => simp [hloaded, Except.mapError, bind, Except.bind]
    | ok state =>
      simp [hloaded, Except.mapError, bind, Except.bind, pure, Except.pure, eq_comm]

theorem Session.of_start {config : Config τ} {store : Store} {s : Session τ}
    (h : start config store = .ok s) :
    config.check = .ok () ∧ s.sequencer = .start config.maxDelay ∧ s.depth = 0 := by
  obtain ⟨hcheck, state, -, rfl⟩ := start_eq_ok_iff.mp h
  exact ⟨hcheck, sequencer_ofSaved config store state⟩

/-! ### The countdown -/

namespace Sequencer

/-- The countdown can only be stopped or running, and a clamped delay makes it run. -/
def Counts (q : Sequencer τ) : Prop :=
  Seconds.IsCount q.remaining ∧ Seconds.isPositive q.ceiling = true

/-- The sequencer is as it was, or it has been asked for a delay. -/
def Follows (q q' : Sequencer τ) : Prop := q'.Counts ∧ (q' = q ∨ q'.isWaiting = true)

variable [LawfulSeconds τ] {q q' q'' : Sequencer τ}

theorem Delays.follows (h : q.Delays q') (hq : q.Counts) : q.Follows q' := by
  rcases h with rfl | ⟨added, hadded, rfl⟩
  · exact ⟨hq, Or.inl rfl⟩
  · -- a request above the ceiling adds the ceiling, which is positive as well
    have hpos : Seconds.isPositive added = true := by
      rcases hadded with h | rfl
      · exact h
      · exact hq.2
    have hsum := LawfulSeconds.isPositive_add hq.1 hpos
    exact ⟨⟨Or.inr hsum, hq.2⟩, Or.inr hsum⟩

/-- A delay that has been asked for stays asked for. -/
theorem Follows.delays (h : q.Follows q') (h' : q'.Delays q'') : q.Follows q'' := by
  obtain ⟨hc, hd⟩ := h'.follows h.1
  refine ⟨hc, ?_⟩
  rcases hd with rfl | hw
  · exact h.2
  · exact Or.inr hw

omit [LawfulSeconds τ] in
theorem Follows.isWaiting (h : q.Follows q') (hw : q.isWaiting = true) : q'.isWaiting = true := by
  rcases h.2 with rfl | h
  · exact hw
  · exact h

end Sequencer

namespace Console

/-- What holds of a session between operations. -/
structure Resting (c : Console τ) (s : Session τ) : Prop where
  limit_pos : 0 < c.config.maxAliasDepth
  depth_eq : s.depth = 0
  nonempty : ∀ q ∈ s.sequencer.parked, q.statements ≠ []
  settled : s.sequencer.parked = [] ∨ s.sequencer.isWaiting = true
  counts : s.sequencer.Counts

/-- The sessions of a console between operations. -/
inductive Reachable (c : Console τ) : Session τ → Prop
  | start {store : Store} {s : Session τ} : Session.start c.config store = .ok s → Reachable c s
  | after {op : Op τ} {s t : Session τ} {outcome : Outcome} :
      Reachable c s → c.Returns op s outcome t → Reachable c t

variable [LawfulSeconds τ] {c : Console τ} {s t u : Session τ} {outcome : Outcome}
  {work trace : List Entry}

/-- Every run asks for delays and does nothing else to the countdown. -/
theorem Unfolds.follows {rest : List Entry} (h : c.Unfolds work s trace rest t)
    (hs : s.sequencer.Counts) : s.sequencer.Follows t.sequencer :=
  h.keeps_sequencer (fun _ _ hd hq => hq.delays hd) ⟨hs, Or.inl rfl⟩

theorem follows_of_step {e : Entry} {progress : Progress} (h : c.step e s = (progress, t))
    (hs : s.sequencer.Counts) : s.sequencer.Follows t.sequencer :=
  step_keeps (Q := s.sequencer.Follows) (fun _ _ hd hq => hq.delays hd) h ⟨hs, Or.inl rfl⟩

/-! ### What keeps a session at rest -/

namespace Resting

omit [LawfulSeconds τ] in
/-- Only the sequencer and the depth matter. -/
theorem of_eq (hs : c.Resting s) (hq : t.sequencer = s.sequencer) (hd : t.depth = s.depth) :
    c.Resting t := by
  obtain ⟨hl, hd', hn, hw, hcounts⟩ := hs
  refine ⟨hl, hd.trans hd', ?_, ?_, ?_⟩
  · rwa [hq]
  · rwa [hq]
  · rwa [hq]

omit [LawfulSeconds τ] in
/-- Nothing is left to do unless sequences wait. -/
theorem work_eq_nil (hs : c.Resting s) (hw : s.sequencer.isWaiting = false) : s.work = [] := by
  have hnil : s.sequencer.parked = [] := hs.settled.resolve_right (by simp [hw])
  rw [Session.work, hnil]
  rfl

omit [LawfulSeconds τ] in
/-- More sequences may be parked behind the others if the console waits afterwards. -/
theorem of_parked (hs : c.Resting s) {queue : List ParkedSequence} (hcounts : t.sequencer.Counts)
    (hkeep : s.sequencer.isWaiting = true → t.sequencer.isWaiting = true) (hd : t.depth = s.depth)
    (hp : t.sequencer.parked = s.sequencer.parked ++ queue)
    (hq : queue = [] ∨ t.sequencer.isWaiting = true) (hn : ∀ q ∈ queue, q.statements ≠ []) :
    c.Resting t := by
  refine ⟨hs.limit_pos, hd.trans hs.depth_eq, ?_, ?_, hcounts⟩
  · intro q hm
    rw [hp] at hm
    rcases List.mem_append.mp hm with hm | hm
    · exact hs.nonempty q hm
    · exact hn q hm
  · rcases hs.settled with hnil | hw
    · rcases hq with rfl | hw
      · exact Or.inl (by rw [hp, hnil, List.append_nil])
      · exact Or.inr hw
    · exact Or.inr (hkeep hw)

theorem of_step (hs : c.Resting s) (hc : c.IsBuiltin) {e : Entry} {progress : Progress}
    (h : c.step e s = (progress, t)) : c.Resting t := by
  have hu := hc.uniform_step e
  have hp := hu.parked_eq s
  have hd := hu.depth_eq s
  rw [h] at hp hd
  have hf := follows_of_step h hs.counts
  exact hs.of_parked hf.1 hf.isWaiting hd (by rw [hp, List.append_nil]) (Or.inl rfl) nofun

theorem of_ends (hs : c.Resting s) (hc : c.IsBuiltin) (h : c.Ends work s trace outcome t) :
    c.Resting t := by
  cases h with
  | parked hrun hq hn =>
    have hf := hrun.follows hs.counts
    have hd := hrun.depth_eq hc
    refine hs.of_parked hf.1 hf.isWaiting hd ?_ hq hn
    rw [← hrun.parked_eq hc]
    rfl
  | refused hrun _ =>
    have hf := hrun.follows hs.counts
    exact hs.of_parked hf.1 hf.isWaiting (hrun.depth_eq hc)
      (by rw [hrun.parked_eq hc, List.append_nil]) (Or.inl rfl) nofun

theorem of_runs (hs : c.Resting s) (hc : c.IsBuiltin) {statements : List String}
    (h : c.Runs statements s outcome t) : c.Resting t := by
  obtain ⟨trace, hends⟩ := h.ends hc
  exact hs.of_ends hc hends

omit [LawfulSeconds τ] in
theorem reportFailure (hs : c.Resting s) (outcome : Outcome) :
    c.Resting (s.reportFailure outcome) := by
  cases outcome <;> exact hs.of_eq rfl rfl

omit [LawfulSeconds τ] in
theorem of_caught (h : c.Resting (caught outcome t).2) : c.Resting t := by
  rcases goesOn_or outcome with ho | ⟨e, rfl, he⟩
  · rw [caught_of_goesOn ho] at h
    cases outcome <;> exact h.of_eq rfl rfl
  · rwa [caught_of_limit he] at h

theorem of_taken (hs : c.Resting s) (hc : c.IsBuiltin) {e : Entry}
    (h : c.Taken e s trace outcome t) : c.Resting t := by
  cases h with
  | refused _ => exact hs
  | onto hstep hends => exact (hs.of_step hc hstep).of_ends hc hends

theorem of_dispatch (hs : c.Resting s) (hc : c.IsBuiltin) {line : String}
    (h : c.Returns (.dispatch line) s outcome t) : c.Resting t := by
  obtain ⟨trace, htaken⟩ := h.taken hc
  exact (hs.of_taken hc htaken).of_caught

theorem of_execute (hs : c.Resting s) (hc : c.IsBuiltin) {line : String}
    (h : c.Returns (.execute line) s outcome t) : c.Resting t := by
  obtain ⟨-, outcome', u, hr, rfl⟩ := returns_execute.mp h
  exact (hs.of_dispatch hc hr).reportFailure outcome'

theorem of_fire (hs : c.Resting s) (hc : c.IsBuiltin) {hook : LifecycleHook}
    (h : c.Returns (.fire hook) s outcome t) : c.Resting t := by
  obtain ⟨-, hf⟩ := returns_fire.mp h
  cases hh : s.hooks.command hook with
  | none =>
    rw [hh] at hf
    rwa [hf]
  | some command =>
    rw [hh] at hf
    obtain ⟨outcome', u, hr, rfl⟩ := hf
    have hfiring : c.Resting (firing hook command s) := hs.of_eq rfl rfl
    exact (hfiring.of_runs hc hr).reportFailure outcome'

theorem of_submit (hs : c.Resting s) (hc : c.IsBuiltin) (h : c.Returns .submit s outcome t) :
    c.Resting t := by
  obtain ⟨-, rfl | hentered⟩ := returns_submit h
  · exact hs.of_eq rfl rfl
  · refine of_execute (hs.of_eq ?_ ?_) hc hentered <;> rfl

theorem of_primitive (hs : c.Resting s) {p : Primitive τ}
    (h : c.Returns (.primitive p) s outcome t) : c.Resting t := by
  have hu := p.uniform_apply c.config
  have hp := hu.parked_eq s
  have hd := hu.depth_eq s
  have hf := (p.delays_apply c.config s).follows hs.counts
  rw [returns_primitive.mp h] at hp hd hf
  exact hs.of_parked hf.1 hf.isWaiting hd (by rw [hp, List.append_nil]) (Or.inl rfl) nofun

end Resting

/-- Time and what it resumes keep the countdown as it should be. -/
theorem Resumes.counts {events : List Event} (h : c.Resumes s events u)
    (hs : s.sequencer.Counts) : u.sequencer.Counts := by
  induction h with
  | settled => exact hs
  | ran _ _ _ hends _ ih =>
    cases hends with
    | parked hrun => exact ih (hrun.follows hs).1
  | aborted _ _ _ hends _ ih =>
    cases hends with
    | refused hrun => exact ih (hrun.follows hs).1

theorem Resting.of_tick (hs : c.Resting s) (hc : c.IsBuiltin) {e : Elapsed}
    (h : c.Returns (.tick e) s outcome t) : c.Resting t := by
  obtain ⟨-, events, hu⟩ := hc.resumes_of_tick h
  have hcounts : (s.advance e).sequencer.Counts :=
    ⟨LawfulSeconds.isCount_countDown e hs.counts.1, hs.counts.2⟩
  exact ⟨hs.limit_pos, hu.depth_eq.trans hs.depth_eq, hu.nonempty_after hc hs.nonempty,
    hu.settled_after, hu.counts hcounts⟩

omit [LawfulSeconds τ] in
/-- A session rests when it starts. -/
theorem Resting.of_start {store : Store} (h : Session.start c.config store = .ok s) :
    c.Resting s := by
  obtain ⟨hcheck, hq, hd⟩ := Session.of_start h
  obtain ⟨hlimit, hceiling⟩ := Config.of_check hcheck
  refine ⟨hlimit, hd, ?_, Or.inl ?_, ?_, ?_⟩
  all_goals rw [hq]
  · exact nofun
  · rfl
  · exact Or.inl rfl
  · exact hceiling

/-- **Rest**: between operations every session rests. -/
theorem Reachable.resting (hc : c.IsBuiltin) (h : c.Reachable s) : c.Resting s := by
  induction h with
  | start hstart => exact .of_start hstart
  | @after op _ _ _ _ hr ih =>
    cases op with
    | primitive p => exact ih.of_primitive hr
    | dispatch line => exact ih.of_dispatch hc hr
    | execute line => exact ih.of_execute hc hr
    | runSequence text => exact ih.of_runs hc (returns_runSequence.mp hr)
    | tick e => exact ih.of_tick hc hr
    | fire hook => exact ih.of_fire hc hr
    | submit => exact ih.of_submit hc hr

end Console

/-! ### Consoles that can be run -/

instance : DecidableEq Outcome
  | .ok (), .ok () => isTrue rfl
  | .error e, .error e' => decidable_of_iff (e = e') ⟨congrArg _, Except.error.inj⟩
  | .ok (), .error _ => isFalse nofun
  | .error _, .ok () => isFalse nofun

/-- The console with the built-in commands that counts time exactly. -/
def Console.exact (config : Config Rat) : Console Rat where
  config
  registry := match Registry.build Builtins.all with
    | .ok registry => registry
    | .error _ => {}

theorem Console.isBuiltin_exact (config : Config Rat) : (exact config).IsBuiltin := by
  have built : (Registry.build (Builtins.all : List (CommandDecl (Handler Rat)))).isOk = true := by
    decide +kernel
  unfold IsBuiltin exact
  cases h : Registry.build (Builtins.all : List (CommandDecl (Handler Rat))) with
  | ok registry => rfl
  | error e =>
    rw [h] at built
    cases built

/-- The session that begins with some aliases in memory. -/
def Session.remembering (config : Config Rat) (aliases : TextMap) : Session Rat :=
  ofSaved config (.memory { state := { aliases } }) { aliases }

theorem Session.start_remembering {config : Config Rat} (h : config.check = .ok ())
    (aliases : TextMap) : start config (.memory { state := { aliases } }) =
      .ok (.remembering config aliases) := by
  unfold start
  rw [h]
  exact congrArg (fun log => Except.ok { remembering config aliases with log })
    (List.append_nil _)

theorem Console.reachable_remembering {config : Config Rat} (h : config.check = .ok ())
    (aliases : TextMap) : (exact config).Reachable (.remembering config aliases) :=
  .start (Session.start_remembering h aliases)

end CommandConsole

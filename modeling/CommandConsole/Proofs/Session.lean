import CommandConsole.Console

/-!
# CommandConsole.Proofs.Session — what surrounds an operation

The queue, how deep an operation nests and the log up to it surround an operation that runs no
command: it does the same whatever they are, and it leaves them as they are, but for the lines that
it logs. Only a request to delay reads the countdown.

* `Session.within`: a session in other surroundings; `Session.bare`: in none.
* `Uniform`, `Primitive.uniform_apply`: operations do the same in all surroundings.
* `Primitive.delays_apply`: what an operation can do to the countdown.
* `Primitive.of_error`: what operations that fail have in common.
* `GoesOn`: outcomes that do not end a chain of alias expansions; operations have no others.
-/

namespace CommandConsole

variable {τ α : Type}

/-- What surrounds an action: the queue, how deep the action nests, and the log up to it. -/
structure Frame where
  parked : List ParkedSequence
  depth : Nat
  log : List LogLine

namespace Session

/-- What surrounds the actions on the session. -/
def frame (s : Session τ) : Frame := ⟨s.sequencer.parked, s.depth, s.log⟩

/-- The session in other surroundings; its log goes on that of the frame. -/
def within (s : Session τ) (f : Frame) : Session τ :=
  { s with
    sequencer := { s.sequencer with parked := f.parked }
    depth := f.depth
    log := s.log ++ f.log }

/-- The session without a queue, a depth or a log. -/
def bare (s : Session τ) : Session τ :=
  { s with sequencer := { s.sequencer with parked := [] }, depth := 0, log := [] }

/-- The session with another countdown, with its ceiling and its queue. -/
def timed (s : Session τ) (sequencer : Sequencer τ) : Session τ := { s with sequencer }

/-- The session in other surroundings and with another countdown. -/
def under (s : Session τ) (q : Sequencer τ) (f : Frame) : Session τ := (s.timed q).within f

theorem under_eq_within {s : Session τ} {q : Sequencer τ} (h : s.sequencer = q) (f : Frame) :
    s.under q f = s.within f := by
  subst h
  rfl

end Session

/-- A step that does the same in all surroundings, and leaves them as they are. -/
def Uniform (step : Session τ → α × Session τ) : Prop :=
  ∀ s f, step (s.within f) = ((step s).1, (step s).2.within f)

namespace Uniform

variable {step : Session τ → α × Session τ} (h : Uniform step) (s : Session τ)

include h

/-- Where a step leads follows from where it leads without any surroundings. -/
theorem eq_bare : step s = ((step s.bare).1, (step s.bare).2.within s.frame) := h s.bare s.frame

theorem parked_eq : (step s).2.sequencer.parked = s.sequencer.parked := by
  rw [h.eq_bare s]
  rfl

theorem depth_eq : (step s).2.depth = s.depth := by
  rw [h.eq_bare s]
  rfl

theorem fst_bare : (step s.bare).1 = (step s).1 := by rw [h.eq_bare s]

theorem bare_snd_bare : (step s.bare).2.bare = (step s).2.bare := by
  rw [h.eq_bare s]
  rfl

end Uniform

namespace Session

/-! ### Operations in other surroundings -/

variable (s : Session τ) (q : Sequencer τ) (f : Frame)

theorem infoAll_under (ifNone : String) (lines : List String) :
    (s.under q f).infoAll ifNone lines = (s.infoAll ifNone lines).under q f := by
  have foldl (lines : List String) (s : Session τ) :
      lines.foldl info (s.under q f) = (lines.foldl info s).under q f := by
    induction lines generalizing s with
    | nil => rfl
    | cons line lines ih => exact ih (s.info line)
  cases lines with
  | nil => rfl
  | cons line lines => exact foldl lines (s.info line)

theorem recordAll_under (lines : List LogLine) :
    (s.under q f).recordAll lines = (s.recordAll lines).under q f := by
  induction lines generalizing s with
  | nil => rfl
  | cons line lines ih => exact ih (s.record line)

theorem reportFailure_within (o : Outcome) :
    (s.within f).reportFailure o = (s.reportFailure o).within f := by
  cases o <;> rfl

theorem sequencer_reportFailure (o : Outcome) :
    (s.reportFailure o).sequencer = s.sequencer := by
  cases o <;> rfl

theorem persist_under : (s.under q f).persist = s.persist.under q f := by
  have saved : (s.under q f).store.save (s.under q f).snapshot = s.store.save s.snapshot := rfl
  have kept (store : Store) (outcome : Outcome) (lines : List LogLine) :=
    recordAll_under { s with store, attempts := ⟨s.snapshot, outcome⟩ :: s.attempts } q f lines
  unfold persist
  rw [saved]
  rcases s.store.save s.snapshot with ⟨e | _, store, lines⟩
  · exact congrArg (fun t => (record t (.warn ("Failed to save console state: " ++ e.message))).print
      .warning ("Failed to save console state: " ++ e.message)) (kept store (.error e) lines)
  · exact kept store (.ok ()) lines

theorem persist_print_under (e : Emphasis) (text : String) :
    (s.under q f).persist.print e text = (s.persist.print e text).under q f := by
  rw [persist_under]
  rfl

theorem registerAlias_under (name text : String) : (s.under q f).registerAlias name text =
    ((s.registerAlias name text).1, (s.registerAlias name text).2.under q f) := by
  unfold registerAlias
  rw [show (s.under q f).aliases = s.aliases from rfl]
  cases s.aliases.register name text with
  | error e => rfl
  | ok aliases =>
    exact congrArg (Prod.mk _) (persist_print_under { s with aliases } q f _ _)

theorem deregisterAlias_under (name : String) :
    (s.under q f).deregisterAlias name = (s.deregisterAlias name).under q f := by
  unfold deregisterAlias
  rw [show (s.under q f).aliases = s.aliases from rfl]
  rcases s.aliases.deregister name with ⟨_ | _ | _, aliases⟩
  · exact persist_print_under { s with aliases } q f _ _
  · exact persist_print_under { s with aliases } q f _ _
  · rfl

theorem listAliases_under (name : String) : (s.under q f).listAliases name =
    ((s.listAliases name).1, (s.listAliases name).2.under q f) := by
  unfold listAliases
  rw [show (s.under q f).aliases = s.aliases from rfl]
  cases s.aliases.list name with
  | error e => rfl
  | ok entries => exact congrArg (Prod.mk _) (infoAll_under s q f _ _)

theorem registerEvent_under (name command : String) : (s.under q f).registerEvent name command =
    ((s.registerEvent name command).1, (s.registerEvent name command).2.under q f) := by
  unfold registerEvent
  rw [show (s.under q f).hooks = s.hooks from rfl]
  cases s.hooks.register name command with
  | error e => rfl
  | ok registered =>
    exact congrArg (Prod.mk _) (persist_print_under { s with hooks := registered.2 } q f _ _)

theorem removeEvent_under (name : String) : (s.under q f).removeEvent name =
    ((s.removeEvent name).1, (s.removeEvent name).2.under q f) := by
  unfold removeEvent
  cases LifecycleHook.read name with
  | error e => rfl
  | ok hook =>
    rw [show (s.under q f).hooks = s.hooks from rfl]
    dsimp only
    cases s.hooks.command hook with
    | none => rfl
    | some command =>
      exact congrArg (Prod.mk _)
        (persist_print_under { s with hooks := s.hooks.unbind hook } q f _ _)

theorem listEvents_under : (s.under q f).listEvents = s.listEvents.under q f :=
  infoAll_under s q f _ _

theorem showPanel_under : (s.under q f).showPanel = s.showPanel.under q f := by
  unfold showPanel
  rw [show (s.under q f).isOpen = s.isOpen from rfl]
  cases s.isOpen <;> rfl

theorem hidePanel_under : (s.under q f).hidePanel = s.hidePanel.under q f := by
  unfold hidePanel
  rw [show (s.under q f).isOpen = s.isOpen from rfl]
  cases s.isOpen <;> rfl

theorem setFontSize_under (c : Config τ) (size : Int) :
    (s.under q f).setFontSize c size = (s.setFontSize c size).under q f :=
  congrArg (fun t : Session τ => t.info s!"Font size set to {t.fontSize}")
    (persist_under { s with fontSize := c.clampFontSize size } q f)

end Session

/-! ### Requests to delay -/

variable [Seconds τ]

/-- The queue does not matter to a request to delay. -/
theorem Sequencer.requestDelay_parked (q : Sequencer τ) (parked : List ParkedSequence)
    (amount : τ) : { q with parked }.requestDelay amount =
      ((q.requestDelay amount).1, { (q.requestDelay amount).2 with parked }) := by
  unfold requestDelay
  by_cases hp : Seconds.isPositive amount = true
  · by_cases hc : Seconds.exceeds amount q.ceiling = true
    · simp [hp, hc]
    · simp [hp, hc]
  · simp [hp]

/-- A sequencer after a request to delay: the countdown is as it was, or a positive amount or the
ceiling is added to it. -/
def Sequencer.Delays (q q' : Sequencer τ) : Prop :=
  q' = q ∨ ∃ added, (Seconds.isPositive added = true ∨ added = q.ceiling) ∧
    q' = { q with remaining := Seconds.add q.remaining added }

namespace Session

theorem requestDelay_within (s : Session τ) (f : Frame) (amount : τ) :
    (s.within f).requestDelay amount = (s.requestDelay amount).within f := by
  have asked : (s.within f).sequencer.requestDelay amount = _ :=
    s.sequencer.requestDelay_parked f.parked amount
  unfold requestDelay
  rw [asked]
  rcases s.sequencer.requestDelay amount with ⟨_ | _ | _, q⟩ <;> rfl

theorem delays_requestDelay (s : Session τ) (amount : τ) :
    s.sequencer.Delays (s.requestDelay amount).sequencer := by
  unfold requestDelay Sequencer.requestDelay
  by_cases hp : Seconds.isPositive amount = true
  · rw [hp]
    by_cases hc : Seconds.exceeds amount s.sequencer.ceiling = true
    · rw [hc]
      exact Or.inr ⟨s.sequencer.ceiling, Or.inr rfl, rfl⟩
    · rw [if_neg (by simp), if_neg hc]
      exact Or.inr ⟨amount, Or.inl hp, rfl⟩
  · rw [if_pos (by simpa using hp)]
    exact Or.inl rfl

theorem ceiling_requestDelay (s : Session τ) (amount : τ) :
    (s.requestDelay amount).sequencer.ceiling = s.sequencer.ceiling := by
  rcases s.delays_requestDelay amount with h | ⟨_, -, h⟩ <;> rw [h]

end Session

/-! ### Operations that run no command -/

/-- The outcome does not end a chain of alias expansions. -/
def GoesOn (outcome : Except ConsoleError α) : Prop :=
  ∀ e, outcome = .error e → e.isRecursionLimit = false

theorem goesOn_ok (x : α) : GoesOn (.ok x) := nofun

theorem GoesOn.error {e : ConsoleError} (h : e.isRecursionLimit = false) :
    GoesOn (.error e : Except ConsoleError α) := by
  intro e' he
  obtain rfl := Except.error.inj he
  exact h

theorem goesOn_or (outcome : Except ConsoleError α) :
    GoesOn outcome ∨ ∃ e, outcome = .error e ∧ e.isRecursionLimit = true := by
  cases outcome with
  | ok x => exact Or.inl (goesOn_ok x)
  | error e =>
    cases he : e.isRecursionLimit with
    | false => exact Or.inl (.error he)
    | true => exact Or.inr ⟨e, rfl, he⟩

/-- The error is about a name that was given, or about its being blank. -/
inductive ConsoleError.Concerns (name : String) : ConsoleError → Prop
  | reserved : Concerns name (.reservedName (Text.trim name))
  | blank : Concerns name (.invalidArgument "alias name is empty")
  | unknownAlias : Concerns name (.unknownAlias (Text.trim name))
  | invalidHook : Concerns name (.invalidHook (Text.trim name))

theorem AliasTable.concerns_of_register {table : AliasTable} {name text : String}
    {e : ConsoleError} (h : table.register name text = .error e) : e.Concerns name := by
  unfold register at h
  dsimp only at h
  split at h
  · cases h
    exact .reserved
  · split at h
    · cases h
      exact .blank
    · cases h

theorem AliasTable.concerns_of_list {table : AliasTable} {name : String} {e : ConsoleError}
    (h : table.list name = .error e) : e.Concerns name := by
  unfold list at h
  dsimp only at h
  split at h
  · cases h
  · split at h
    · cases h
    · cases h
      exact .unknownAlias

theorem LifecycleHook.concerns_of_read {text : String} {e : ConsoleError}
    (h : read text = .error e) : e.Concerns text := by
  unfold read at h
  dsimp only at h
  split at h
  · cases h
  · cases h
    exact .invalidHook

theorem EventHooks.concerns_of_register {hooks : EventHooks} {name command : String}
    {e : ConsoleError} (h : hooks.register name command = .error e) : e.Concerns name := by
  unfold register at h
  cases hr : LifecycleHook.read name with
  | error e' =>
    rw [hr] at h
    cases h
    exact LifecycleHook.concerns_of_read hr
  | ok hook =>
    rw [hr] at h
    cases h

namespace Primitive

/-- The names that an operation looks up, as they were given. -/
def named : Primitive τ → List String
  | registerAlias name _ | listAliases name | registerEvent name _ | removeEvent name => [name]
  | _ => []

variable (c : Config τ)

/-- Only a request to delay reads the countdown. -/
theorem apply_under (p : Primitive τ) (hp : ∀ amount, p ≠ .requestDelay amount) (s : Session τ)
    (q : Sequencer τ) (f : Frame) :
    p.apply c (s.under q f) = ((p.apply c s).1, (p.apply c s).2.under q f) := by
  cases p with
  | requestDelay amount => exact absurd rfl (hp amount)
  | registerAlias name text => exact s.registerAlias_under q f name text
  | deregisterAlias name => simp only [apply, s.deregisterAlias_under]
  | listAliases name => exact s.listAliases_under q f name
  | registerEvent name command => exact s.registerEvent_under q f name command
  | removeEvent name => exact s.removeEvent_under q f name
  | listEvents => simp only [apply, s.listEvents_under]
  | setFontSize size => simp only [apply, s.setFontSize_under]
  | resetFontSize => simp only [apply, s.setFontSize_under]
  | showPanel => simp only [apply, s.showPanel_under]
  | hidePanel => simp only [apply, s.hidePanel_under]
  | _ => rfl

/-- An operation without a request to delay leaves the countdown as it is. -/
theorem apply_eq_under (p : Primitive τ) (hp : ∀ amount, p ≠ .requestDelay amount)
    (s : Session τ) : p.apply c s =
      ((p.apply c s.bare).1, (p.apply c s.bare).2.under s.sequencer s.frame) :=
  apply_under c p hp s.bare s.sequencer s.frame

/-- **Surroundings**: an operation that runs no command does the same in all surroundings. -/
theorem uniform_apply (p : Primitive τ) : Uniform fun s => p.apply c s := by
  intro s f
  by_cases hp : ∃ amount, p = .requestDelay amount
  · obtain ⟨amount, rfl⟩ := hp
    exact Prod.ext rfl (s.requestDelay_within f amount)
  · -- the countdown is left as it is, so only the surroundings change
    have other : ∀ amount, p ≠ .requestDelay amount := fun amount h => hp ⟨amount, h⟩
    have kept : (p.apply c s).2.sequencer = s.sequencer := by
      rw [apply_eq_under c p other s]
      rfl
    have moved := apply_under c p other s s.sequencer f
    rw [Session.under_eq_within kept] at moved
    exact moved

/-- An operation that runs no command leaves the sequencer as it is, or asks for a delay. -/
theorem delays_apply (p : Primitive τ) (s : Session τ) :
    s.sequencer.Delays (p.apply c s).2.sequencer := by
  by_cases hp : ∃ amount, p = .requestDelay amount
  · obtain ⟨amount, rfl⟩ := hp
    exact s.delays_requestDelay amount
  · rw [apply_eq_under c p (fun amount h => hp ⟨amount, h⟩) s]
    exact Or.inl rfl

/-- **Failures**: an operation that fails changes nothing, and its error is about a name. -/
theorem of_error {c : Config τ} {p : Primitive τ} {s t : Session τ} {e : ConsoleError}
    (h : p.apply c s = (.error e, t)) : t = s ∧ ∃ name ∈ p.named, e.Concerns name := by
  cases p with
  | registerAlias name text =>
    change s.registerAlias name text = _ at h
    unfold Session.registerAlias at h
    cases hr : s.aliases.register name text with
    | error e' =>
      rw [hr] at h
      cases h
      exact ⟨rfl, name, List.mem_singleton_self name, AliasTable.concerns_of_register hr⟩
    | ok aliases =>
      rw [hr] at h
      cases h
  | listAliases name =>
    change s.listAliases name = _ at h
    unfold Session.listAliases at h
    cases hr : s.aliases.list name with
    | error e' =>
      rw [hr] at h
      cases h
      exact ⟨rfl, name, List.mem_singleton_self name, AliasTable.concerns_of_list hr⟩
    | ok entries =>
      rw [hr] at h
      cases h
  | registerEvent name command =>
    change s.registerEvent name command = _ at h
    unfold Session.registerEvent at h
    cases hr : s.hooks.register name command with
    | error e' =>
      rw [hr] at h
      cases h
      exact ⟨rfl, name, List.mem_singleton_self name, EventHooks.concerns_of_register hr⟩
    | ok registered =>
      rw [hr] at h
      cases h
  | removeEvent name =>
    change s.removeEvent name = _ at h
    unfold Session.removeEvent at h
    cases hr : LifecycleHook.read name with
    | error e' =>
      rw [hr] at h
      cases h
      exact ⟨rfl, name, List.mem_singleton_self name, LifecycleHook.concerns_of_read hr⟩
    | ok hook =>
      rw [hr] at h
      dsimp only at h
      split at h <;> cases h
  | _ => cases h

/-- No operation but a run of statements can end a chain of expansions. -/
theorem goesOn_apply (p : Primitive τ) (s : Session τ) : GoesOn (p.apply c s).1 := by
  intro e he
  obtain ⟨-, name, -, hconcerns⟩ := of_error (Prod.ext he rfl : p.apply c s = (.error e, _))
  cases hconcerns <;> rfl

end Primitive

end CommandConsole

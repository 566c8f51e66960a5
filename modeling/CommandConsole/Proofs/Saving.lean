import CommandConsole.Proofs.Course

/-!
# CommandConsole.Proofs.Saving — what is remembered is saved at once

Only operations that run no command change what a console remembers between runs, and each that
does saves it before it ends. A save that fails is a warning and nothing else. So in any run,
however it nests, the newest attempt to save has tried to save what is remembered at its end.

* `Primitive.sparesOrSaves_apply`: an operation leaves what is remembered alone, or revises and
  saves it.
* `Console.Tallies`, `Console.Course.tallied`: what holds of operations and adds up holds of runs.
* `Ledger.Agrees`, `Console.Course.agrees`: the attempts of a run, and what they leave.
-/

namespace CommandConsole

variable {τ : Type}

/-- The part of a session that saving is about. -/
structure Ledger where
  aliases : AliasTable
  hooks : EventHooks
  fontSize : Int
  store : Store
  attempts : List SaveAttempt

/-- What would be saved. -/
def Ledger.snapshot (x : Ledger) : SavedState where
  fontSize := x.fontSize
  aliases := x.aliases.entries
  events := x.hooks.toMap

/-- What a save makes of it. -/
def Ledger.save (x : Ledger) : Ledger :=
  { x with
    store := (x.store.save x.snapshot).2.1
    attempts := ⟨x.snapshot, (x.store.save x.snapshot).1⟩ :: x.attempts }

/-- The warning about a save that fails. -/
def saveWarning : Outcome → List Output
  | .ok () => []
  | .error e => [.line .warning ("Failed to save console state: " ++ e.message)]

namespace Session

/-- What saving is about. -/
def ledger (s : Session τ) : Ledger := ⟨s.aliases, s.hooks, s.fontSize, s.store, s.attempts⟩

/-- The session with another store. -/
def on (s : Session τ) (store : Store) : Session τ := { s with store }

/-! ### Saving -/

theorem exists_log_recordAll (s : Session τ) (lines : List LogLine) :
    ∃ log, s.recordAll lines = { s with log } := by
  induction lines generalizing s with
  | nil => exact ⟨s.log, rfl⟩
  | cons line lines ih => exact ih (s.record line)

/-- Saving adds an attempt, changes the store and warns of a failure; the log apart, it does nothing
else. -/
theorem exists_log_persist (s : Session τ) : ∃ log, s.persist =
    { s with
      store := (s.store.save s.snapshot).2.1
      attempts := ⟨s.snapshot, (s.store.save s.snapshot).1⟩ :: s.attempts
      emitted := saveWarning (s.store.save s.snapshot).1 ++ s.emitted
      log } := by
  unfold persist
  rcases s.store.save s.snapshot with ⟨outcome, store, lines⟩
  obtain ⟨log, hlog⟩ := exists_log_recordAll
    { s with store, attempts := ⟨s.snapshot, outcome⟩ :: s.attempts } lines
  dsimp only
  rw [hlog]
  cases outcome with
  | ok _ => exact ⟨log, rfl⟩
  | error e =>
    exact ⟨.warn ("Failed to save console state: " ++ e.message) :: log, rfl⟩

theorem ledger_recordAll (s : Session τ) (lines : List LogLine) :
    (s.recordAll lines).ledger = s.ledger := by
  obtain ⟨log, h⟩ := s.exists_log_recordAll lines
  rw [h]
  rfl

theorem ledger_persist (s : Session τ) : s.persist.ledger = s.ledger.save := by
  obtain ⟨log, h⟩ := s.exists_log_persist
  rw [h]
  rfl

theorem emitted_persist (s : Session τ) :
    s.persist.emitted = saveWarning (s.store.save s.snapshot).1 ++ s.emitted := by
  obtain ⟨log, h⟩ := s.exists_log_persist
  rw [h]

/-! ### Listings -/

theorem exists_emitted_infoAll (ifNone : String) (lines : List String) : ∃ shown,
    ∀ s : Session τ, s.infoAll ifNone lines = { s with emitted := shown ++ s.emitted } := by
  have foldl (lines : List String) : ∃ shown, ∀ s : Session τ,
      lines.foldl info s = { s with emitted := shown ++ s.emitted } := by
    induction lines with
    | nil => exact ⟨[], fun _ => rfl⟩
    | cons line lines ih =>
      obtain ⟨shown, h⟩ := ih
      refine ⟨shown ++ [.line .info line], fun s => ?_⟩
      rw [List.foldl_cons, h, List.append_assoc]
      rfl
  cases lines with
  | nil => exact ⟨[.line .info ifNone], fun _ => rfl⟩
  | cons line lines => exact foldl (line :: lines)

end Session

/-! ### Operations that run no command -/

/-- How an operation revises what is remembered. -/
inductive Revises (c : Config τ) (s : Session τ) : Session τ → Prop
  | registered {name text : String} {aliases : AliasTable} :
      s.aliases.register name text = .ok aliases → Revises c s { s with aliases }
  | deregistered {name : String} {removal : Removal} {aliases : AliasTable} :
      s.aliases.deregister name = (removal, aliases) → Revises c s { s with aliases }
  | bound {name command : String} {hook : LifecycleHook} {hooks : EventHooks} :
      s.hooks.register name command = .ok (hook, hooks) → Revises c s { s with hooks }
  | unbound (hook : LifecycleHook) : Revises c s { s with hooks := s.hooks.unbind hook }
  | sized (size : Int) : Revises c s { s with fontSize := c.clampFontSize size }

/-- Whatever the store, the step ends like this and leaves what is remembered alone. -/
def Spares (step : Store → Outcome × Session τ) (s : Session τ) : Prop :=
  ∃ (outcome : Outcome) (t : Session τ), t.ledger = s.ledger ∧
    ∀ store, step store = (outcome, t.on store)

/-- Whatever the store, the step succeeds: it makes this session, saves it, and shows a line that is
no warning. -/
def Saves (step : Store → Outcome × Session τ) (u : Session τ) (line : Output) : Prop :=
  (∀ text, line ≠ .text .warning text) ∧
    ∀ store, step store = (.ok (), (u.on store).persist.emit line)

namespace Revises

variable {c : Config τ} {s u : Session τ}

theorem store_eq (h : Revises c s u) : u.store = s.store := by cases h <;> rfl

theorem attempts_eq (h : Revises c s u) : u.attempts = s.attempts := by cases h <;> rfl

theorem emitted_eq (h : Revises c s u) : u.emitted = s.emitted := by cases h <;> rfl

end Revises

theorem Output.line_ne_warning {e : Emphasis} (he : e ≠ .warning) (content text : String) :
    Output.line e content ≠ .text .warning text := fun h => he (Output.text.inj h).1

namespace Session

variable (s : Session τ)

/-- The step leaves what is remembered alone, or revises it and saves it. -/
def SparesOrSaves (c : Config τ) (step : Store → Outcome × Session τ) : Prop :=
  Spares step s ∨ ∃ u line, Revises c s u ∧ Saves step u line

variable (c : Config τ)

theorem sparesOrSaves_registerAlias (name text : String) :
    s.SparesOrSaves c fun store => (s.on store).registerAlias name text := by
  unfold registerAlias
  cases h : s.aliases.register name text with
  | error e =>
    refine Or.inl ⟨.error e, s, rfl, fun store => ?_⟩
    dsimp only [on]
    rw [h]
  | ok aliases =>
    refine Or.inr ⟨_, .line .success s!"Registered alias '{Text.trim name}'", .registered h,
      Output.line_ne_warning (by decide) _, fun store => ?_⟩
    dsimp only [on]
    rw [h]
    rfl

theorem sparesOrSaves_deregisterAlias (name : String) :
    s.SparesOrSaves c fun store => (.ok (), (s.on store).deregisterAlias name) := by
  unfold deregisterAlias
  rcases h : s.aliases.deregister name with ⟨count | _ | _, aliases⟩
  · refine Or.inr ⟨_, .line .info s!"Removed all aliases ({count})", .deregistered h,
      Output.line_ne_warning (by decide) _, fun store => ?_⟩
    dsimp only [on]
    rw [h]
    rfl
  · refine Or.inr ⟨_, .line .info s!"Removed alias '{Text.trim name}'", .deregistered h,
      Output.line_ne_warning (by decide) _, fun store => ?_⟩
    dsimp only [on]
    rw [h]
    rfl
  · refine Or.inl ⟨.ok (), s, rfl, fun store => ?_⟩
    dsimp only [on]
    rw [h]

theorem sparesOrSaves_registerEvent (name command : String) :
    s.SparesOrSaves c fun store => (s.on store).registerEvent name command := by
  unfold registerEvent
  rcases h : s.hooks.register name command with e | ⟨hook, hooks⟩
  · refine Or.inl ⟨.error e, s, rfl, fun store => ?_⟩
    dsimp only [on]
    rw [h]
  · refine Or.inr ⟨_, .line .success s!"Event '{hook.name}' registered", .bound h,
      Output.line_ne_warning (by decide) _, fun store => ?_⟩
    dsimp only [on]
    rw [h]
    rfl

theorem sparesOrSaves_removeEvent (name : String) :
    s.SparesOrSaves c fun store => (s.on store).removeEvent name := by
  unfold removeEvent
  cases LifecycleHook.read name with
  | error e => exact Or.inl ⟨.error e, s, rfl, fun _ => rfl⟩
  | ok hook =>
    dsimp only
    cases h : s.hooks.command hook with
    | none =>
      refine Or.inl ⟨.ok (), s, rfl, fun store => ?_⟩
      dsimp only [on]
      rw [h]
    | some command =>
      refine Or.inr ⟨_, .line .info s!"Removed event '{hook.name}'", .unbound hook,
        Output.line_ne_warning (by decide) _, fun store => ?_⟩
      dsimp only [on]
      rw [h]
      rfl

theorem sparesOrSaves_setFontSize (size : Int) :
    s.SparesOrSaves c fun store => (.ok (), (s.on store).setFontSize c size) := by
  refine Or.inr ⟨_, .line .info s!"Font size set to {c.clampFontSize size}", .sized size,
    Output.line_ne_warning (by decide) _, fun store => ?_⟩
  let u : Session τ := { s.on store with fontSize := c.clampFontSize size }
  have hsize : u.persist.fontSize = c.clampFontSize size :=
    congrArg Ledger.fontSize u.ledger_persist
  show (Except.ok (), u.persist.info s!"Font size set to {u.persist.fontSize}") = _
  rw [hsize]
  rfl

theorem spares_infoAll (ifNone : String) (lines : List String) :
    Spares (fun store => (.ok (), (s.on store).infoAll ifNone lines)) s := by
  obtain ⟨shown, h⟩ := exists_emitted_infoAll (τ := τ) ifNone lines
  exact ⟨.ok (), { s with emitted := shown ++ s.emitted }, rfl,
    fun store => congrArg (Prod.mk _) (h (s.on store))⟩

theorem spares_listAliases (name : String) :
    Spares (fun store => (s.on store).listAliases name) s := by
  unfold listAliases
  cases h : s.aliases.list name with
  | error e =>
    refine ⟨.error e, s, rfl, fun store => ?_⟩
    dsimp only [on]
    rw [h]
  | ok entries =>
    obtain ⟨outcome, t, ht, hall⟩ := s.spares_infoAll "No aliases registered"
      (entries.map fun e => e.1 ++ " => " ++ e.2)
    refine ⟨outcome, t, ht, fun store => ?_⟩
    rw [← hall store]
    dsimp only [on]
    rw [h]

theorem spares_listEvents : Spares (fun store => (.ok (), (s.on store).listEvents)) s :=
  s.spares_infoAll "No event hooks registered"
    (s.hooks.bindings.map fun (b : LifecycleHook × String) => b.1.name ++ " => " ++ b.2)

theorem spares_showPanel : Spares (fun store => (.ok (), (s.on store).showPanel)) s := by
  refine ⟨.ok (), s.showPanel, ?_, fun store => congrArg (Prod.mk _) ?_⟩
  · unfold showPanel
    split <;> rfl
  · unfold showPanel
    rw [show (s.on store).isOpen = s.isOpen from rfl]
    split <;> rfl

theorem spares_hidePanel : Spares (fun store => (.ok (), (s.on store).hidePanel)) s := by
  refine ⟨.ok (), s.hidePanel, ?_, fun store => congrArg (Prod.mk _) ?_⟩
  · unfold hidePanel
    split <;> rfl
  · unfold hidePanel
    rw [show (s.on store).isOpen = s.isOpen from rfl]
    split <;> rfl

variable [Seconds τ]

theorem spares_requestDelay (amount : τ) :
    Spares (fun store => (.ok (), (s.on store).requestDelay amount)) s := by
  refine ⟨.ok (), s.requestDelay amount, ?_, fun store => congrArg (Prod.mk _) ?_⟩
  · unfold requestDelay
    rcases s.sequencer.requestDelay amount with ⟨_ | _ | _, q⟩ <;> rfl
  · unfold requestDelay
    dsimp only [on]
    rcases s.sequencer.requestDelay amount with ⟨_ | _ | _, q⟩ <;> rfl

end Session

theorem Primitive.spares_of_apply [Seconds τ] {p : Primitive τ} {c : Config τ} {s : Session τ}
    (hledger : (p.apply c s).2.ledger = s.ledger)
    (h : ∀ store, p.apply c (s.on store) = (.ok (), (p.apply c s).2.on store)) :
    Spares (fun store => p.apply c (s.on store)) s :=
  ⟨.ok (), (p.apply c s).2, hledger, h⟩

/-- **Operations**: an operation leaves what is remembered alone, or revises it and saves it. -/
theorem Primitive.sparesOrSaves_apply [Seconds τ] (p : Primitive τ) (c : Config τ)
    (s : Session τ) : s.SparesOrSaves c fun store => p.apply c (s.on store) := by
  cases p with
  | registerAlias name text => exact s.sparesOrSaves_registerAlias c name text
  | deregisterAlias name => exact s.sparesOrSaves_deregisterAlias c name
  | registerEvent name command => exact s.sparesOrSaves_registerEvent c name command
  | removeEvent name => exact s.sparesOrSaves_removeEvent c name
  | setFontSize size => exact s.sparesOrSaves_setFontSize c size
  | resetFontSize => exact s.sparesOrSaves_setFontSize c c.defaultFontSize
  | listAliases name => exact Or.inl (s.spares_listAliases name)
  | listEvents => exact Or.inl s.spares_listEvents
  | requestDelay amount => exact Or.inl (s.spares_requestDelay amount)
  | showPanel => exact Or.inl s.spares_showPanel
  | hidePanel => exact Or.inl s.spares_hidePanel
  | print | signal | drain | clear | insert | backspace | historyBack | historyForward
  | submitPrompt => exact Or.inl (Primitive.spares_of_apply rfl fun _ => rfl)

/-! ### Runs -/

namespace Console

variable [Seconds τ]

/-- What is tallied of each operation that runs no command, and adds up, is tallied of every run. -/
structure Tallies (c : Console τ) (R : List (Moment τ) → Ledger → Ledger → Prop) : Prop where
  nil (x : Ledger) : R [] x x
  /-- Nothing else that happens counts. -/
  silent (m : Moment τ) (x : Ledger) : (∀ p, m.occasion ≠ .starts (.primitive p)) → R [m] x x
  primitive (p : Primitive τ) (path : Path) (s : Session τ) :
    R [⟨.starts (.primitive p), path, s⟩] s.ledger (p.apply c.config s).2.ledger
  append {moments moments' : List (Moment τ)} {x y z : Ledger} :
    R moments x y → R moments' y z → R (moments ++ moments') x z

variable {c : Console τ} {s t : Session τ} {outcome : Outcome}

omit [Seconds τ] in
theorem ledger_reportFailure (s : Session τ) (outcome : Outcome) :
    (s.reportFailure outcome).ledger = s.ledger := by
  cases outcome <;> rfl

omit [Seconds τ] in
theorem ledger_putBack (s : Session τ) (behind : List ParkedSequence) (depth : Nat) :
    (s.putBack behind depth).ledger = s.ledger := rfl

/-- **Runs**: in whatever is run, only operations that run no command count. -/
theorem Course.tallied {R : List (Moment τ) → Ledger → Ledger → Prop} (hR : c.Tallies R)
    {job : Job τ} {path : Path} {origins origins' : List Path} {moments : List (Moment τ)}
    (h : c.Course job path s origins moments outcome t origins') :
    R moments s.ledger t.ledger := by
  have first {m : Moment τ} {moments : List (Moment τ)} {x y : Ledger}
      (hm : ∀ p, m.occasion ≠ .starts (.primitive p)) (hr : R moments x y) :
      R (m :: moments) x y :=
    hR.append (hR.silent m x hm) hr
  induction h with
  | @primitive p path s _ _ _ hp =>
    have hr := hR.primitive p path s
    rwa [hp] at hr
  | blank | unresolved | help | unbound | ignored => exact hR.silent _ _ nofun
  | refused => exact first nofun (hR.silent _ _ nofun)
  | expanded _ _ _ _ _ ih => exact first nofun (first nofun ih)
  | invoked _ _ _ _ _ ih | runSequence _ ih | tick _ ih => exact first nofun ih
  | execute _ ih | fired _ _ ih | submitted _ _ ih =>
    rw [ledger_reportFailure]
    exact first nofun ih
  | nil | park | done | fail | settled => exact hR.nil _
  | abort _ _ _ ih | look _ ih => exact ih
  | goesOn _ _ _ _ ih ih' =>
    rw [ledger_reportFailure] at ih'
    exact hR.append ih ih'
  | resumed _ _ _ _ ih ih' =>
    rw [ledger_putBack, ledger_reportFailure] at ih'
    exact hR.append ih ih'
  | perform _ _ ih ih' => exact hR.append ih ih'

end Console

/-! ### Attempts to save -/

/-- These attempts, newest first, lead from one store to another, each ending as the store has
it. -/
inductive Store.Attempted : Store → List SaveAttempt → Store → Prop
  | nil (store : Store) : Attempted store [] store
  | cons {store store' : Store} {made : List SaveAttempt} (state : SavedState) :
      Attempted store made store' →
      Attempted store (⟨state, (store'.save state).1⟩ :: made) (store'.save state).2.1

theorem Store.Attempted.append {x y z : Store} {made made' : List SaveAttempt}
    (h : x.Attempted made y) (h' : y.Attempted made' z) : x.Attempted (made' ++ made) z := by
  induction h' with
  | nil => exact h
  | cons state _ ih => exact .cons state ih

/-- These attempts, newest first, are made between two ledgers, and the newest has tried to save
what is remembered at the end; without any, that is what it was. -/
structure Ledger.Agrees (made : List SaveAttempt) (x y : Ledger) : Prop where
  attempts_eq : y.attempts = made ++ x.attempts
  attempted : x.store.Attempted made y.store
  newest : (made.head?.map SaveAttempt.state).getD x.snapshot = y.snapshot

namespace Ledger.Agrees

variable {x y z : Ledger} {made made' : List SaveAttempt}

theorem refl (x : Ledger) : Agrees [] x x := ⟨rfl, .nil _, rfl⟩

theorem append (h : Agrees made x y) (h' : Agrees made' y z) : Agrees (made' ++ made) x z := by
  refine ⟨?_, h.attempted.append h'.attempted, ?_⟩
  · rw [h'.attempts_eq, h.attempts_eq, List.append_assoc]
  · cases made' with
    | nil => exact h.newest.trans h'.newest
    | cons newest made' => exact h'.newest

end Ledger.Agrees

variable [Seconds τ]

/-- An operation leaves what saving is about alone, or revises what is remembered and saves it. -/
theorem Primitive.ledger_apply (p : Primitive τ) (c : Config τ) (s : Session τ) :
    (p.apply c s).2.ledger = s.ledger ∨
      ∃ u, Revises c s u ∧ (p.apply c s).2.ledger = u.ledger.save := by
  rcases p.sparesOrSaves_apply c s with ⟨outcome, t, ht, h⟩ | ⟨u, line, hu, -, h⟩
  · refine Or.inl ?_
    have happly : p.apply c s = (outcome, t.on s.store) := h s.store
    rw [happly]
    show { t.ledger with store := s.ledger.store } = s.ledger
    rw [ht]
  · refine Or.inr ⟨u, hu, ?_⟩
    have happly : p.apply c s = (.ok (), (u.on s.store).persist.emit line) := h s.store
    have hu : u.on s.store = u := by
      rw [← hu.store_eq]
      rfl
    rw [happly, hu]
    exact u.ledger_persist

/-- The attempts to save that are made at a moment, newest first. -/
def Moment.attempts (c : Config τ) (m : Moment τ) : List SaveAttempt :=
  match m.occasion with
  | .starts (.primitive p) =>
    let after := (p.apply c m.session).2.attempts
    after.take (after.length - m.session.attempts.length)
  | _ => []

theorem Moment.attempts_eq {p : Primitive τ} {c : Config τ} {path : Path} {s : Session τ}
    {made : List SaveAttempt} (h : (p.apply c s).2.attempts = made ++ s.attempts) :
    Moment.attempts c ⟨.starts (.primitive p), path, s⟩ = made := by
  show (p.apply c s).2.attempts.take ((p.apply c s).2.attempts.length - s.attempts.length) = made
  rw [h, List.length_append, Nat.add_sub_cancel, List.take_left]

/-- An operation makes at most one attempt to save; it tries to save what is remembered at its
end. -/
theorem Primitive.attempts_apply (p : Primitive τ) (c : Config τ) (path : Path) (s : Session τ) :
    let made := Moment.attempts c ⟨.starts (.primitive p), path, s⟩
    ((p.apply c s).2.ledger = s.ledger ∧ made = []) ∨
      ∃ u, Revises c s u ∧ (p.apply c s).2.ledger = u.ledger.save ∧
        made = [⟨u.snapshot, (u.store.save u.snapshot).1⟩] := by
  rcases p.ledger_apply c s with h | ⟨u, hu, h⟩
  · exact Or.inl ⟨h, Moment.attempts_eq (congrArg Ledger.attempts h)⟩
  · refine Or.inr ⟨u, hu, h, Moment.attempts_eq ?_⟩
    rw [← hu.attempts_eq]
    exact congrArg Ledger.attempts h

namespace Console

variable {c : Console τ} {s t : Session τ} {outcome : Outcome}

/-- The attempts to save that are made in a run, newest first. -/
def attemptsIn (c : Console τ) (moments : List (Moment τ)) : List SaveAttempt :=
  moments.reverse.flatMap (Moment.attempts c.config)

theorem attemptsIn_append (moments moments' : List (Moment τ)) :
    c.attemptsIn (moments ++ moments') = c.attemptsIn moments' ++ c.attemptsIn moments := by
  unfold attemptsIn
  rw [List.reverse_append, List.flatMap_append]

theorem attemptsIn_singleton (m : Moment τ) :
    c.attemptsIn [m] = m.attempts c.config := List.flatMap_singleton _ _

theorem attemptsIn_silent {m : Moment τ} (hm : ∀ p, m.occasion ≠ .starts (.primitive p)) :
    c.attemptsIn [m] = [] := by
  rw [attemptsIn_singleton]
  unfold Moment.attempts
  split
  · next p heq => exact absurd heq (hm p)
  · rfl

theorem tallies_agrees : c.Tallies fun moments => Ledger.Agrees (c.attemptsIn moments) where
  nil := .refl
  silent m x hm := by
    rw [attemptsIn_silent hm]
    exact .refl x
  primitive p path s := by
    rw [attemptsIn_singleton]
    rcases p.attempts_apply c.config path s with ⟨h, hmade⟩ | ⟨u, hu, h, hmade⟩
    · rw [h, hmade]
      exact .refl _
    · rw [h, hmade]
      refine ⟨congrArg (List.cons _) hu.attempts_eq, ?_, rfl⟩
      show s.store.Attempted _ _
      rw [← hu.store_eq]
      exact .cons _ (.nil _)
  append h h' := by
    rw [attemptsIn_append]
    exact h.append h'

/-- **Attempts**: a run makes the attempts of its operations, and the newest has tried to save what
is remembered at its end. -/
theorem Course.agrees {job : Job τ} {path : Path} {origins origins' : List Path}
    {moments : List (Moment τ)}
    (h : c.Course job path s origins moments outcome t origins') :
    Ledger.Agrees (c.attemptsIn moments) s.ledger t.ledger :=
  h.tallied tallies_agrees

end Console

end CommandConsole

import CommandConsole.Proofs.Files
import CommandConsole.Proofs.Normal
import Mathlib.Logic.Relation

/-!
# CommandConsole.Proofs.Storing — the store and the session agree

A reliable store keeps the newest state that it has been given successfully, and a save of it can
fail at any time. Over such a store, between operations, the store holds the state of the last
attempt that succeeded; if that is the newest attempt of the run, it is what the session remembers.

* `Store.Reliable`: stores whose failures keep what was saved; `Store.reliable_memory`: states in
  memory, whichever attempts are refused; `Store.reliable_file`: files that can be written.
* `lastSaved`: what the attempts to save leave in a reliable store.
* `Console.Leads`: operations in turn; `Console.Leads.exists_tallied`: what is tallied of runs.
* `Console.SavesOnce`: what an operation that changes what is remembered does, whatever the store.
* `Console.store_agrees`: the store, the session, and what one operation does to both.
-/

namespace CommandConsole

variable {τ : Type}

/-! ### Reliable stores -/

/-- After any attempts, a save keeps its state in place of the one before, or fails and keeps the
one before. Only states with a font size in the range of the settings count. -/
def Store.Reliable (c : Config τ) (store : Store) : Prop :=
  ∀ made now, store.Attempted made now → ∀ state,
    c.clampFontSize state.fontSize = state.fontSize →
      (now.save state).2.1.load.1 =
        match (now.save state).1 with
        | .ok () => .ok state
        | .error _ => now.load.1

/-- What attempts to save, newest first, leave of a state that was saved before. -/
def lastSaved (before : SavedState) : List SaveAttempt → SavedState
  | [] => before
  | ⟨state, .ok ()⟩ :: _ => state
  | ⟨_, .error _⟩ :: earlier => lastSaved before earlier

namespace Store

theorem Attempted.of_memory {m : MemoryStore} {made : List SaveAttempt} {now : Store}
    (h : (memory m).Attempted made now) (hm : m.refusesLoad = none) :
    ∃ m', now = memory m' ∧ m'.refusesLoad = none := by
  induction h with
  | nil => exact ⟨m, rfl, hm⟩
  | cons state _ ih =>
    obtain ⟨m', rfl, hm'⟩ := ih
    refine ⟨(m'.save state).2, rfl, ?_⟩
    unfold MemoryStore.save
    split <;> exact hm'

/-- A state in memory that can be loaded is reliable, whichever attempts to save are refused. -/
theorem reliable_memory (c : Config τ) {m : MemoryStore} (hm : m.refusesLoad = none) :
    (memory m).Reliable c := by
  intro made now h state _
  obtain ⟨m', rfl, hm'⟩ := h.of_memory hm
  have hload {m : MemoryStore} (h : m.refusesLoad = none) : m.load = .ok m.state := by
    unfold MemoryStore.load
    rw [h]
  show (m'.save state).2.load =
    match (m'.save state).1 with | .ok () => .ok state | .error _ => m'.load
  unfold MemoryStore.save
  cases m'.refuses m'.attempts with
  | none => exact hload hm'
  | some reason => exact (hload hm').trans (hload hm').symm

theorem save_file (f : FileStore) (state : SavedState) : (file f).save state =
    ((f.save state).1, file (f.save state).2.1, (f.save state).2.2) := by
  unfold save
  dsimp only

theorem Attempted.of_file {f : FileStore} {made : List SaveAttempt} {now : Store}
    (h : (file f).Attempted made now) (hf : f.tree.Writable f.path) :
    ∃ f', now = file f' ∧ f'.tree.Writable f'.path := by
  induction h with
  | nil => exact ⟨f, rfl, hf⟩
  | cons state _ ih =>
    obtain ⟨f', rfl, hf'⟩ := ih
    rw [save_file]
    exact ⟨_, rfl, (FileStore.save_of_writable hf' state).2⟩

theorem isFontSize_of_clamp {c : Config τ} (hmin : SavedState.isFontSize c.minFontSize = true)
    (hmax : SavedState.isFontSize c.maxFontSize = true) {size : Int}
    (h : c.clampFontSize size = size) : SavedState.isFontSize size = true := by
  unfold Config.clampFontSize at h
  split at h
  · exact h ▸ hmin
  · split at h
    · exact h ▸ hmax
    · simp only [SavedState.isFontSize, Bool.and_eq_true, decide_eq_true_eq] at *
      omega

/-- A state in a file that can be written is reliable, if all font sizes in range can be saved. -/
theorem reliable_file {c : Config τ} (hmin : SavedState.isFontSize c.minFontSize = true)
    (hmax : SavedState.isFontSize c.maxFontSize = true) {f : FileStore}
    (hf : f.tree.Writable f.path) : (file f).Reliable c := by
  intro made now h state hstate
  obtain ⟨f', rfl, hf'⟩ := h.of_file hf
  obtain ⟨hsave, -⟩ := FileStore.save_of_writable hf' state
  rw [save_file]
  dsimp only
  rw [hsave]
  exact FileStore.load_of_save (isFontSize_of_clamp hmin hmax hstate) hsave

variable {c : Config τ} {store now : Store} {before : SavedState} {made : List SaveAttempt}

/-- A reliable store holds the state of the last attempt that succeeded. -/
theorem Reliable.load_eq (h : store.Reliable c) (hbefore : store.load.1 = .ok before)
    (hmade : store.Attempted made now)
    (hrange : ∀ a ∈ made, c.clampFontSize a.state.fontSize = a.state.fontSize) :
    now.load.1 = .ok (lastSaved before made) := by
  induction hmade with
  | nil => exact hbefore
  | @cons now made state hmade ih =>
    obtain ⟨hstate, hrange⟩ := List.forall_mem_cons.mp hrange
    rw [h _ _ hmade state hstate]
    cases (now.save state).1 with
    | ok _ => rfl
    | error e => exact ih hrange

end Store

/-! ### Operations in turn -/

namespace Console

variable [Seconds τ] {c : Console τ} {s t : Session τ} {outcome : Outcome}

/-- Operations lead from one session to another. -/
def Leads (c : Console τ) : Session τ → Session τ → Prop :=
  Relation.ReflTransGen fun s t => ∃ op outcome, c.Returns op s outcome t

/-- What is tallied of runs holds from one session to another. -/
theorem Leads.exists_tallied (h : c.Leads s t) : ∃ moments,
    ∀ {R : List (Moment τ) → Ledger → Ledger → Prop}, c.Tallies R →
      R moments s.ledger t.ledger := by
  induction h with
  | refl => exact ⟨[], fun hR => hR.nil _⟩
  | tail _ hstep ih =>
    obtain ⟨moments, hmoments⟩ := ih
    obtain ⟨op, outcome, hr⟩ := hstep
    obtain ⟨origins, moments', origins', hcourse⟩ := hr.exists_course_nil
    exact ⟨moments ++ moments', fun hR => hR.append (hmoments hR) (hcourse.tallied hR)⟩

/-- What is reached from a start is led to from it. -/
theorem reachable_iff : c.Reachable s ↔
    ∃ store s₀, Session.start c.config store = .ok s₀ ∧ c.Leads s₀ s := by
  constructor
  · intro h
    induction h with
    | start hstart => exact ⟨_, _, hstart, .refl⟩
    | after _ hr ih =>
      obtain ⟨store, s₀, hstart, hleads⟩ := ih
      exact ⟨store, s₀, hstart, hleads.tail ⟨_, _, hr⟩⟩
  · rintro ⟨store, s₀, hstart, hleads⟩
    induction hleads with
    | refl => exact .start hstart
    | tail _ hstep ih =>
      obtain ⟨op, outcome, hr⟩ := hstep
      exact ih.after hr

/-! ### Agreement -/

/-- Whatever the store, the step succeeds, changes what is remembered in the same way, and makes one
attempt to save that. The output gets a line that is no warning, and a warning before it if the
attempt fails. -/
def SavesOnce (step : Store → Outcome × Session τ) (u : Session τ) : Prop :=
  ∃ (state : SavedState) (line : Output), (∀ text, line ≠ .text .warning text) ∧
    ∀ store, ∃ t, step store = (.ok (), t) ∧ t.snapshot = state ∧
      t.store = (store.save state).2.1 ∧
      t.attempts = ⟨state, (store.save state).1⟩ :: u.attempts ∧
      t.emitted = line :: saveWarning (store.save state).1 ++ u.emitted

theorem spares_or_savesOnce (p : Primitive τ) (config : Config τ) (u : Session τ) :
    Spares (fun store => p.apply config (u.on store)) u ∨
      SavesOnce (fun store => p.apply config (u.on store)) u := by
  rcases p.sparesOrSaves_apply config u with h | ⟨v, line, hv, hline, h⟩
  · exact Or.inl h
  · refine Or.inr ⟨v.snapshot, line, hline, fun store => ⟨_, h store, ?_⟩⟩
    have hledger : ((v.on store).persist.emit line).ledger = _ := (v.on store).ledger_persist
    have hemitted : ((v.on store).persist.emit line).emitted = _ :=
      congrArg (List.cons line) (v.on store).emitted_persist
    refine ⟨congrArg Ledger.snapshot hledger, congrArg Ledger.store hledger, ?_, ?_⟩
    · rw [← hv.attempts_eq]
      exact congrArg Ledger.attempts hledger
    · rw [hemitted, ← hv.emitted_eq]
      rfl

theorem lastSaved_of_ok {before : SavedState} {made : List SaveAttempt} {a : SaveAttempt}
    (ha : a ∈ made.head?) (hok : a.outcome = .ok ()) : lastSaved before made = a.state := by
  obtain ⟨earlier, rfl⟩ := List.head?_eq_some_iff.mp ha
  obtain ⟨state, outcome⟩ := a
  subst hok
  rfl

section Stored

variable {store : Store} {s₀ : Session τ} (hstart : Session.start c.config store = .ok s₀)
  (h : c.Leads s₀ s)

include hstart h

/-- The attempts that a session has counted are those of all the operations since the start. -/
theorem Leads.attempted : store.Attempted s.attempts s.store ∧ c.AllNormal s.attempts ∧
    (s.attempts.head?.map SaveAttempt.state).getD s₀.snapshot = s.snapshot := by
  obtain ⟨moments, htallied⟩ := h.exists_tallied
  obtain ⟨hstore₀, hattempts₀⟩ := Session.store_start hstart
  have hrange := Config.min_le_max_of_check (Session.of_start hstart).1
  obtain ⟨hattempts, hattempted, hnewest⟩ := htallied tallies_agrees
  obtain ⟨-, hnormal⟩ := htallied (tallies_normal hrange) (Session.normal_start hstart)
  have hall : s.attempts = c.attemptsIn moments := by
    rw [show s.attempts = c.attemptsIn moments ++ s₀.attempts from hattempts, hattempts₀,
      List.append_nil]
  rw [← hall] at hattempted hnewest hnormal
  exact ⟨hstore₀ ▸ hattempted, hnormal, hnewest⟩

/-- The newest attempt since the start has tried to save what is remembered. -/
theorem Leads.newest {a : SaveAttempt} (ha : a ∈ s.attempts.head?) : a.state = s.snapshot := by
  obtain ⟨-, -, hnewest⟩ := h.attempted hstart
  rwa [Option.mem_def.mp ha] at hnewest

/-- A reliable store holds the state of the last attempt since the start that succeeded. -/
theorem Leads.load_eq (hstore : store.Reliable c.config) {loaded : SavedState}
    (hload : store.load.1 = .ok loaded) :
    s.store.load.1 = .ok (lastSaved loaded s.attempts) := by
  obtain ⟨hattempted, hnormal, -⟩ := h.attempted hstart
  refine hstore.load_eq hload hattempted fun a ha => ?_
  obtain ⟨x, hx, hstate⟩ := hnormal a ha
  rw [← hstate]
  exact hx.fontSize

/-- If the newest attempt since the start has succeeded, a reliable store holds what is
remembered. -/
theorem Leads.load_eq_snapshot (hstore : store.Reliable c.config) {a : SaveAttempt}
    (ha : a ∈ s.attempts.head?) (hok : a.outcome = .ok ()) : s.store.load.1 = .ok s.snapshot := by
  obtain ⟨-, loaded, hload, -⟩ := Session.start_eq_ok_iff.mp hstart
  rw [h.load_eq hstart hstore hload, lastSaved_of_ok ha hok, h.newest hstart ha]

end Stored

/-- **The store and the session agree.** A store is reliable and a console has started from it, and
any operations have followed, whatever handlers do in them. Then the store holds the state of the
last attempt that succeeded, or the state it held at the start. The newest attempt has tried to save
what the session remembers; if it succeeded, the store holds that. An operation that changes what is
remembered attempts to save, and its newest attempt tries to save what is remembered when it ends.
All attempts are made by operations that run no command, at most one by each: whether it succeeds
changes nothing but the output, which gets one warning if it fails. -/
theorem store_agrees {store : Store} {loaded : SavedState} {s₀ : Session τ}
    (hstore : store.Reliable c.config) (hload : store.load.1 = .ok loaded)
    (hstart : Session.start c.config store = .ok s₀) (h : c.Leads s₀ s) :
    s.store.load.1 = .ok (lastSaved loaded s.attempts) ∧
      (∀ a ∈ s.attempts.head?, a.state = s.snapshot ∧
        (a.outcome = .ok () → s.store.load.1 = .ok s.snapshot)) ∧
      (∀ op (u : Session τ) outcome t, c.Returns op u outcome t → ∀ path origins,
        origins.length = u.sequencer.parked.length → ∃ moments origins',
          c.Course (.op op) path u origins moments outcome t origins' ∧
            t.attempts = c.attemptsIn moments ++ u.attempts ∧
            (t.snapshot ≠ u.snapshot → c.attemptsIn moments ≠ []) ∧
            ∀ a ∈ (c.attemptsIn moments).head?, a.state = t.snapshot) ∧
      ∀ (p : Primitive τ) (u : Session τ),
        Spares (fun store => p.apply c.config (u.on store)) u ∨
          SavesOnce (fun store => p.apply c.config (u.on store)) u := by
  refine ⟨h.load_eq hstart hstore hload, fun a ha => ⟨h.newest hstart ha,
    h.load_eq_snapshot hstart hstore ha⟩, ?_, fun p u => spares_or_savesOnce p c.config u⟩
  intro op u outcome t hr path origins hlen
  obtain ⟨moments, origins', hcourse⟩ := hr.exists_course path hlen
  obtain ⟨hattempts, -, hnewest⟩ := hcourse.agrees
  refine ⟨moments, origins', hcourse, hattempts, ?_, ?_⟩
  · intro hchanged hnone
    rw [hnone] at hnewest
    exact hchanged hnewest.symm
  · intro a ha
    rwa [Option.mem_def.mp ha] at hnewest

/-- The second save of a sequence is refused: the store keeps the first, the session goes on with a
warning, and the next save that succeeds brings the two together again. -/
theorem store_agrees_refused :
    let c := exact .standard
    let store := Store.memory { refuses := fun n => if n = 1 then some "disk full" else none }
    ∃ s t u, Session.start c.config store = .ok s ∧
      c.Returns (.runSequence "alias new a to print x; fontsize 12") s (.ok ()) t ∧
      t.output = [.line .success "Registered alias 'a'",
        .line .warning "Failed to save console state: I/O error: disk full",
        .line .info "Font size set to 12"] ∧
      t.fontSize = 12 ∧ t.store.load.1 = .ok { aliases := TextMap.empty.insert "a" "print x" } ∧
      c.Returns (.execute "event onstartup a") t (.ok ()) u ∧ u.store.load.1 = .ok u.snapshot := by
  intro c store
  have hstore : store.Reliable c.config := Store.reliable_memory c.config rfl
  let s : Session Rat := Session.ofSaved c.config store {}
  have hs : Session.start c.config store = .ok s := rfl
  have h : ∃ r ∈ c.perform 12 (.runSequence "alias new a to print x; fontsize 12") s,
      r.1 = .ok () ∧
      r.2.output = [.line .success "Registered alias 'a'",
        .line .warning "Failed to save console state: I/O error: disk full",
        .line .info "Font size set to 12"] ∧
      r.2.fontSize = 12 ∧
      lastSaved {} r.2.attempts = { aliases := TextMap.empty.insert "a" "print x" } ∧
      ∃ q ∈ c.perform 12 (.execute "event onstartup a") r.2, q.1 = .ok () ∧
        ∃ a ∈ q.2.attempts.head?, a.outcome = .ok () := by
    decide +kernel
  obtain ⟨⟨_, t⟩, ht, rfl, hout, hsize, hlast, ⟨_, u⟩, hu, rfl, a, ha, hok⟩ := h
  have hst : c.Leads s t := .single ⟨_, _, 12, ht⟩
  have hsu : c.Leads s u := hst.tail ⟨_, _, 12, hu⟩
  refine ⟨s, t, u, hs, ⟨12, ht⟩, hout, hsize, ?_, ⟨12, hu⟩, ?_⟩
  · exact (store_agrees hstore rfl hs hst).1.trans (congrArg Except.ok hlast)
  · exact ((store_agrees hstore rfl hs hsu).2.1 a ha).2 hok

end Console

end CommandConsole

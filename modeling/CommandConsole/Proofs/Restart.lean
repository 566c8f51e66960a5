import CommandConsole.Proofs.Storing

/-!
# CommandConsole.Proofs.Restart — a restart changes nothing that is remembered

A session can start from any saved state, however odd. What it would save then starts sessions that
remember the same, and so does what any session would save between operations.

* `Session.Recalls`: two sessions remember the same.
* `Console.Reachable.normal`: between operations, what is remembered is in the normal form.
* `Console.restarts`: sessions that remember the same start from what is saved.
-/

namespace CommandConsole

variable {τ : Type}

/-- The session remembers the same aliases, bindings and font size as the other one. -/
structure Session.Recalls (t s : Session τ) : Prop where
  snapshot_eq : t.snapshot = s.snapshot
  aliases_eq : t.aliases = s.aliases
  hooks_eq : t.hooks = s.hooks
  fontSize_eq : t.fontSize = s.fontSize

namespace Console

variable [Seconds τ] {c : Console τ} {s : Session τ}

theorem Reachable.check_eq_ok (h : c.Reachable s) : c.config.check = .ok () := by
  induction h with
  | start hstart => exact (Session.of_start hstart).1
  | after _ _ ih => exact ih

/-- **Between operations**, what is remembered is in the normal form, whatever handlers do. -/
theorem Reachable.normal (h : c.Reachable s) : s.ledger.Normal c.config := by
  obtain ⟨store, s₀, hstart, hleads⟩ := reachable_iff.mp h
  obtain ⟨moments, htallied⟩ := hleads.exists_tallied
  have hrange := Config.min_le_max_of_check h.check_eq_ok
  exact (htallied (tallies_normal hrange) (Session.normal_start hstart)).1

/-- What a session would save between operations starts a session that remembers the same. -/
theorem Reachable.exists_recalls (h : c.Reachable s) {store : Store}
    (hload : store.load.1 = .ok s.snapshot) :
    ∃ t, Session.start c.config store = .ok t ∧ t.Recalls s := by
  obtain ⟨t, ht, hledger⟩ := Session.start_of_normal h.check_eq_ok h.normal hload
  exact ⟨t, ht, congrArg Ledger.snapshot hledger, congrArg Ledger.aliases hledger,
    congrArg Ledger.hooks hledger, congrArg Ledger.fontSize hledger⟩

/-- **Restart.** With valid settings a session starts from every saved state, whatever is in it.
What it would save then starts a session that remembers the same; so does what a session would save
between any operations, whatever handlers do in them. If the newest attempt to save in a reliable
store has succeeded, the next session that starts on this store remembers the same. -/
theorem restarts (hcheck : c.config.check = .ok ()) :
    (∀ (store : Store) state, store.load.1 = .ok state →
      ∃ s, Session.start c.config store = .ok s ∧ ∀ store' : Store,
        store'.load.1 = .ok s.snapshot →
          ∃ t, Session.start c.config store' = .ok t ∧ t.Recalls s) ∧
      (∀ s, c.Reachable s → ∀ store : Store, store.load.1 = .ok s.snapshot →
        ∃ t, Session.start c.config store = .ok t ∧ t.Recalls s) ∧
      ∀ (store : Store) s₀ s, store.Reliable c.config → Session.start c.config store = .ok s₀ →
        c.Leads s₀ s → (∃ a ∈ s.attempts.head?, a.outcome = .ok ()) →
          ∃ t, Session.start c.config s.store = .ok t ∧ t.Recalls s := by
  refine ⟨?_, fun s h store hload => h.exists_recalls hload, ?_⟩
  · intro store state hload
    have hstart := Session.start_eq_ok_iff.mpr ⟨hcheck, state, hload, rfl⟩
    exact ⟨_, hstart, fun store' hload' => (Reachable.start hstart).exists_recalls hload'⟩
  · rintro store s₀ s hstore hstart hleads ⟨a, ha, hok⟩
    have h : c.Reachable s := reachable_iff.mpr ⟨store, s₀, hstart, hleads⟩
    exact h.exists_recalls (hleads.load_eq_snapshot hstart hstore ha hok)

/-- A saved state with the reserved word as an alias, two spellings of one event, an unknown event,
blanks around commands and a font size out of range. -/
theorem restarts_odd :
    let c := exact .standard
    let state : SavedState :=
      { fontSize := 1000
        aliases := TextMap.ofList [("all", "clear"), ("a", " print x ")]
        events := TextMap.ofList
          [(" ONSTARTUP ", "print 1"), ("onStartup", "  print 2 "), ("OnCrash", "print 3")] }
    let kept : SavedState :=
      { fontSize := 50
        aliases := TextMap.ofList [("a", " print x ")]
        events := TextMap.ofList [("OnStartup", "print 2")] }
    c.config.check = .ok () ∧ ∃ s t,
      Session.start c.config (.memory { state }) = .ok s ∧ s.snapshot = kept ∧
        Session.start c.config (.memory { state := kept }) = .ok t ∧ t.snapshot = kept := by
  intro c state kept
  obtain ⟨s, hs, hrestart⟩ := (restarts (c := c) rfl).1 (.memory { state }) state rfl
  have hsnapshot : (Session.ofSaved c.config (.memory { state }) state).snapshot = kept := by
    decide +kernel
  obtain ⟨-, loaded, hload, hsaved⟩ := Session.start_eq_ok_iff.mp hs
  have hloaded : loaded = state := (Except.ok.inj hload).symm
  have hkept : s.snapshot = kept := by
    rw [hsaved, hloaded]
    exact hsnapshot
  obtain ⟨t, ht, hrecalls⟩ := hrestart (.memory { state := kept }) (congrArg Except.ok hkept.symm)
  exact ⟨rfl, s, t, hs, hkept, ht, hrecalls.snapshot_eq.trans hkept⟩

end Console

end CommandConsole

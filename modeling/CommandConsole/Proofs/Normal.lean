import CommandConsole.Proofs.Saving
import CommandConsole.Proofs.Reachable
import CommandConsole.Proofs.Trimming

/-!
# CommandConsole.Proofs.Normal — the normal form of what is remembered

A saved state is read generously: the reserved word is no alias, events are named in any case and
with blanks around them, commands are trimmed, and the font size is brought into range. What a
session remembers is always in the form that this reading leaves, and reading it again changes
nothing.

* `EventHooks.ofMap_toMap`, `AliasTable.ofMap_entries`, `Config.clampFontSize_clampFontSize`:
  reading is stable, part by part.
* `Ledger.Normal`: the normal form; `Session.normal_start`: every session starts in it.
* `Session.start_of_normal`: what is saved in it starts a session that remembers the same.
* `Console.tallies_normal`: runs keep it, and all they try to save is in it.
-/

namespace CommandConsole

variable {τ : Type}

/-! ### Event hooks -/

theorem LifecycleHook.read_name (hook : LifecycleHook) : read hook.name = .ok hook := by
  cases hook <;> decide +kernel

namespace EventHooks

@[simp] theorem command_set (hooks : EventHooks) (hook other : LifecycleHook)
    (command : Option String) :
    (hooks.set hook command).command other = if other = hook then command else
      hooks.command other := by
  cases hook <;> cases other <;> rfl

/-- Every bound command is trimmed. -/
def Trimmed (hooks : EventHooks) : Prop :=
  ∀ hook command, hooks.command hook = some command → Text.trim command = command

theorem trimmed_empty : Trimmed empty := by
  intro hook command h
  cases hook <;> cases h

variable {hooks : EventHooks}

theorem Trimmed.bind (h : hooks.Trimmed) (hook : LifecycleHook) (command : String) :
    (hooks.bind hook command).Trimmed := by
  intro other bound hb
  rw [EventHooks.bind, command_set] at hb
  split at hb
  · cases hb
    exact Text.trim_trim command
  · exact h other bound hb

theorem Trimmed.unbind (h : hooks.Trimmed) (hook : LifecycleHook) :
    (hooks.unbind hook).Trimmed := by
  intro other bound hb
  rw [EventHooks.unbind, command_set] at hb
  split at hb
  · cases hb
  · exact h other bound hb

theorem of_register {name command : String} {hook : LifecycleHook} {hooks' : EventHooks}
    (h : hooks.register name command = .ok (hook, hooks')) : hooks' = hooks.bind hook command := by
  unfold register at h
  cases hread : LifecycleHook.read name with
  | error e =>
    rw [hread] at h
    cases h
  | ok read =>
    rw [hread] at h
    obtain ⟨rfl, rfl⟩ := Prod.mk.inj (Except.ok.inj h)
    rfl

theorem ofEntries_cons (hooks : EventHooks) (entry : String × String)
    (entries : List (String × String)) : hooks.ofEntries (entry :: entries) =
      (((hooks.restore entry).1.ofEntries entries).1,
        (hooks.restore entry).2 ++ ((hooks.restore entry).1.ofEntries entries).2) := by
  rw [ofEntries]

theorem Trimmed.ofEntries (h : hooks.Trimmed) (entries : List (String × String)) :
    (hooks.ofEntries entries).1.Trimmed := by
  induction entries generalizing hooks with
  | nil => exact h
  | cons entry entries ih =>
    rw [ofEntries_cons]
    show ((hooks.restore entry).1.ofEntries entries).1.Trimmed
    refine ih ?_
    unfold restore
    split
    · next hregister =>
      rw [of_register hregister]
      exact h.bind _ _
    · exact h

/-- What is read from a saved map is trimmed. -/
theorem trimmed_ofMap (saved : TextMap) : (ofMap saved).1.Trimmed :=
  trimmed_empty.ofEntries saved.entries

theorem restore_name (hook : LifecycleHook) {command : String} (h : Text.trim command = command) :
    hooks.restore (hook.name, command) = (hooks.set hook (some command), []) := by
  unfold restore register
  rw [LifecycleHook.read_name]
  show (hooks.bind hook command, []) = _
  rw [EventHooks.bind, h]

theorem entries_toMap (hooks : EventHooks) : hooks.toMap.entries =
    (hooks.onShutdown.map (LifecycleHook.onShutdown.name, ·)).toList ++
      (hooks.onStartup.map (LifecycleHook.onStartup.name, ·)).toList := by
  obtain ⟨startup, shutdown⟩ := hooks
  cases startup with
  | none => cases shutdown <;> rfl
  | some startup =>
    cases shutdown with
    | none => rfl
    | some shutdown =>
      -- maps keep the order of the names, not that of the hooks
      have hlt : "OnShutdown" < "OnStartup" := by decide +kernel
      show TextMap.insertEntry "OnShutdown" shutdown [("OnStartup", startup)] = _
      rw [TextMap.insertEntry, if_pos hlt]
      rfl

/-- Trimmed commands are read from their saved form as they are. -/
theorem ofMap_toMap (h : hooks.Trimmed) : ofMap hooks.toMap = (hooks, []) := by
  unfold ofMap
  rw [entries_toMap]
  obtain ⟨startup, shutdown⟩ := hooks
  cases startup with
  | none =>
    cases shutdown with
    | none => rfl
    | some shutdown =>
      show empty.ofEntries [(LifecycleHook.onShutdown.name, shutdown)] = _
      rw [ofEntries_cons, restore_name _ (h .onShutdown _ rfl)]
      rfl
  | some startup =>
    cases shutdown with
    | none =>
      show empty.ofEntries [(LifecycleHook.onStartup.name, startup)] = _
      rw [ofEntries_cons, restore_name _ (h .onStartup _ rfl)]
      rfl
    | some shutdown =>
      show empty.ofEntries [(LifecycleHook.onShutdown.name, shutdown),
        (LifecycleHook.onStartup.name, startup)] = _
      rw [ofEntries_cons, restore_name _ (h .onShutdown _ rfl), ofEntries_cons,
        restore_name _ (h .onStartup _ rfl)]
      rfl

end EventHooks

/-! ### Aliases and the font size -/

namespace AliasTable

variable {table : AliasTable}

/-- The reserved word is no alias. -/
def Unreserved (table : AliasTable) : Prop := table.entries.find? reservedAlias = none

theorem unreserved_ofMap (saved : TextMap) : (ofMap saved).1.Unreserved := by
  show (saved.erase reservedAlias).find? reservedAlias = none
  rw [TextMap.find?_erase, if_pos rfl]

/-- Aliases without the reserved word are read from their saved form as they are. -/
theorem ofMap_entries (h : table.Unreserved) : ofMap table.entries = (table, false) := by
  unfold ofMap TextMap.contains
  rw [TextMap.erase_of_find?_none h, h]
  rfl

theorem Unreserved.register {name text : String} {table' : AliasTable} (h : table.Unreserved)
    (hr : table.register name text = .ok table') : table'.Unreserved := by
  unfold AliasTable.register at hr
  dsimp only at hr
  split at hr
  · cases hr
  · next hname =>
    split at hr
    · cases hr
    · cases hr
      show (table.entries.insert _ _).find? reservedAlias = none
      rw [TextMap.find?_insert, if_neg (Ne.symm hname)]
      exact h

theorem Unreserved.deregister {name : String} {removal : Removal} {table' : AliasTable}
    (h : table.Unreserved) (hr : table.deregister name = (removal, table')) :
    table'.Unreserved := by
  unfold AliasTable.deregister at hr
  dsimp only at hr
  split at hr
  · cases hr
    rfl
  · split at hr
    · cases hr
      show (table.entries.erase _).find? reservedAlias = none
      rw [TextMap.find?_erase]
      split
      · rfl
      · exact h
    · cases hr
      exact h

end AliasTable

namespace Config

variable {c : Config τ}

theorem min_le_max_of_check [Seconds τ] (h : c.check = .ok ()) :
    c.minFontSize ≤ c.maxFontSize := by
  unfold check at h
  split at h
  · cases h
  · next hrange => exact Int.not_lt.mp hrange

/-- Bringing a font size into range again changes nothing. -/
theorem clampFontSize_clampFontSize (h : c.minFontSize ≤ c.maxFontSize) (size : Int) :
    c.clampFontSize (c.clampFontSize size) = c.clampFontSize size := by
  unfold clampFontSize
  grind

end Config

/-! ### The normal form -/

/-- What is remembered is in the form that reading leaves it in. -/
structure Ledger.Normal (c : Config τ) (x : Ledger) : Prop where
  aliases : x.aliases.Unreserved
  hooks : x.hooks.Trimmed
  fontSize : c.clampFontSize x.fontSize = x.fontSize

theorem Revises.normal {c : Config τ} {s u : Session τ}
    (hrange : c.minFontSize ≤ c.maxFontSize) (h : Revises c s u) (hs : s.ledger.Normal c) :
    u.ledger.Normal c := by
  cases h with
  | registered hr => exact ⟨hs.aliases.register hr, hs.hooks, hs.fontSize⟩
  | deregistered hr => exact ⟨hs.aliases.deregister hr, hs.hooks, hs.fontSize⟩
  | bound hr =>
    refine ⟨hs.aliases, ?_, hs.fontSize⟩
    rw [EventHooks.of_register hr]
    exact hs.hooks.bind _ _
  | unbound hook => exact ⟨hs.aliases, hs.hooks.unbind hook, hs.fontSize⟩
  | sized size => exact ⟨hs.aliases, hs.hooks, Config.clampFontSize_clampFontSize hrange size⟩

variable [Seconds τ]

/-! ### The start -/

namespace Session

variable {c : Config τ} {store : Store}

theorem ledger_ofSaved (c : Config τ) (store : Store) (state : SavedState) :
    (ofSaved c store state).ledger =
      ⟨(AliasTable.ofMap state.aliases).1, (EventHooks.ofMap state.events).1,
        c.clampFontSize state.fontSize, store, []⟩ := by
  unfold ofSaved
  dsimp only
  rw [ledger_recordAll]
  split <;> rfl

/-- A session starts on its store, and no attempt to save has been made then. -/
theorem store_start {s : Session τ} (h : start c store = .ok s) :
    s.store = store ∧ s.attempts = [] := by
  obtain ⟨-, state, -, rfl⟩ := start_eq_ok_iff.mp h
  have hledger := ledger_ofSaved c store state
  exact ⟨congrArg Ledger.store hledger, congrArg Ledger.attempts hledger⟩

/-- Every session starts in the normal form. -/
theorem normal_start {s : Session τ} (h : start c store = .ok s) : s.ledger.Normal c := by
  obtain ⟨hcheck, state, -, rfl⟩ := start_eq_ok_iff.mp h
  show (ofSaved c store state).ledger.Normal c
  rw [ledger_ofSaved]
  exact ⟨AliasTable.unreserved_ofMap _, EventHooks.trimmed_ofMap _,
    Config.clampFontSize_clampFontSize (Config.min_le_max_of_check hcheck) _⟩

/-- What is saved in the normal form starts a session that remembers the same. -/
theorem start_of_normal {x : Ledger} (hcheck : c.check = .ok ()) (hx : x.Normal c)
    (hload : store.load.1 = .ok x.snapshot) :
    ∃ t, start c store = .ok t ∧ t.ledger = { x with store, attempts := [] } := by
  refine ⟨_, start_eq_ok_iff.mpr ⟨hcheck, x.snapshot, hload, rfl⟩, ?_⟩
  show (ofSaved c store x.snapshot).ledger = _
  rw [ledger_ofSaved]
  unfold Ledger.snapshot
  dsimp only
  rw [AliasTable.ofMap_entries hx.aliases, EventHooks.ofMap_toMap hx.hooks, hx.fontSize]

end Session

/-! ### Runs -/

namespace Console

variable {c : Console τ} {s t : Session τ} {outcome : Outcome}

/-- Every one of these attempts tries to save a state in the normal form. -/
def AllNormal (c : Console τ) (made : List SaveAttempt) : Prop :=
  ∀ a ∈ made, ∃ x : Ledger, x.Normal c.config ∧ x.snapshot = a.state

theorem tallies_normal (hrange : c.config.minFontSize ≤ c.config.maxFontSize) :
    c.Tallies fun moments x y => x.Normal c.config →
      y.Normal c.config ∧ c.AllNormal (c.attemptsIn moments) where
  nil x hx := ⟨hx, List.forall_mem_nil _⟩
  silent m x hm hx := by
    rw [attemptsIn_silent hm]
    exact ⟨hx, List.forall_mem_nil _⟩
  primitive p path s hs := by
    rw [attemptsIn_singleton]
    rcases p.attempts_apply c.config path s with ⟨h, hmade⟩ | ⟨u, hu, h, hmade⟩
    · rw [h, hmade]
      exact ⟨hs, List.forall_mem_nil _⟩
    · rw [h, hmade]
      have hnormal := hu.normal hrange hs
      exact ⟨⟨hnormal.aliases, hnormal.hooks, hnormal.fontSize⟩,
        List.forall_mem_singleton.mpr ⟨u.ledger, hnormal, rfl⟩⟩
  append h h' hx := by
    obtain ⟨hy, hmade⟩ := h hx
    obtain ⟨hz, hmade'⟩ := h' hy
    rw [attemptsIn_append]
    exact ⟨hz, List.forall_mem_append.mpr ⟨hmade', hmade⟩⟩

end Console

end CommandConsole

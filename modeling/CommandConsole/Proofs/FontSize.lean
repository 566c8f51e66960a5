import CommandConsole.Proofs.Numerals
import CommandConsole.Proofs.Throughout

/-!
# CommandConsole.Proofs.FontSize — the font size and the lines that change it

The font size is brought into the range of the settings wherever it comes from: a saved state, a
line, or the settings themselves, whose default need not be in the range. A line that sets it takes
every numeral that can be saved and refuses the others. Where nothing has been saved yet, the font
size is not the default of the settings but that of saved states.

* `Console.IsBuiltin.returns_of_resolve`: what a line does that is resolved to a handler.
* `Console.SetsFontSize`, `Console.RefusesValue`: what a line for the font size can do.
* `Console.fontSize_numerals`: the range, and what numerals do.
* `Console.fontSize_first_run`: the first font size, compared with the one after a reset.
-/

namespace CommandConsole

variable {τ : Type}

/-! ### Stores where nothing has been saved -/

/-- Nothing has been saved yet, and that can be found out: there is no file, or the state in memory
is the initial one. -/
inductive Store.Fresh : Store → Prop
  | memory {m : MemoryStore} : m.state = .initial → m.refusesLoad = none → Fresh (.memory m)
  | file {f : FileStore} : f.tree.exists_ f.path = false → Fresh (.file f)

theorem Store.Fresh.load_eq {store : Store} (h : store.Fresh) :
    store.load.1 = .ok .initial := by
  cases h with
  | @memory m hstate hrefuses =>
    show m.load = _
    unfold MemoryStore.load
    rw [hrefuses, hstate]
  | @file f hnone =>
    show f.load.1 = _
    unfold FileStore.load
    rw [hnone]
    rfl

/-! ### Setting the font size -/

namespace Builtins

/-- The commands in front of the one for the font size do not know its line for a reset. -/
theorem refuses_reset :
    Command.helpRefuses "fontsize reset".toList
        (fontSize : CommandDecl (Handler τ)).trimmedName = true ∧
      ∀ o ∈ (beforeFontSize : List (CommandDecl (Handler τ))).map (·.outline),
        o.refuses "fontsize reset".toList = true := by
  show Command.helpRefuses "fontsize reset".toList
        (fontSize : CommandDecl (Handler Unit)).trimmedName = true ∧
      ∀ o ∈ (beforeFontSize : List (CommandDecl (Handler Unit))).map (·.outline),
        o.refuses "fontsize reset".toList = true
  decide +kernel

theorem compile_reset : Signature.compile "fontsize reset" =
    .ok (.ofTokens "fontsize reset" [.word "fontsize", .word "reset"]) := by
  decide +kernel

end Builtins

/-- Bringing a font size into a range that is not empty. -/
theorem Config.clampFontSize_eq {c : Config τ} (h : c.minFontSize ≤ c.maxFontSize) (size : Int) :
    c.clampFontSize size = max c.minFontSize (min size c.maxFontSize) := by
  unfold clampFontSize
  split
  · omega
  · split <;> omega

/-- The session with another font size, after one attempt to save it: a failure is shown as a
warning, and then the font size. -/
def Session.resized (s : Session τ) (size : Int) (log : List LogLine) : Session τ :=
  let state := { s.snapshot with fontSize := size }
  let (outcome, store, _) := s.store.save state
  { s with
    fontSize := size
    store
    attempts := ⟨state, outcome⟩ :: s.attempts
    emitted := .line .info s!"Font size set to {size}" :: saveWarning outcome ++ s.emitted
    log }

theorem Session.exists_log_setFontSize [Seconds τ] (s : Session τ) (c : Config τ) (size : Int) :
    ∃ log, s.setFontSize c size = s.resized (c.clampFontSize size) log := by
  obtain ⟨log, h⟩ := exists_log_persist { s with fontSize := c.clampFontSize size }
  refine ⟨log, ?_⟩
  unfold setFontSize
  dsimp only
  rw [h]
  rfl

/-- A request to delay shows a warning at most. -/
theorem Session.emitted_requestDelay [Seconds τ] (s : Session τ) (amount : τ) :
    (s.requestDelay amount).emitted = s.emitted ∨
      ∃ text, (s.requestDelay amount).emitted = .line .warning text :: s.emitted := by
  unfold requestDelay
  rcases s.sequencer.requestDelay amount with ⟨_ | _ | _, q⟩
  · exact Or.inl rfl
  · exact Or.inl rfl
  · exact Or.inr ⟨_, rfl⟩

namespace Console

variable [Seconds τ] {c : Console τ} {s t : Session τ} {line text : String}

/-! ### What the lines do -/

/-- A line that is no alias ends with the effect of the handler that it is resolved to. -/
theorem IsBuiltin.returns_of_resolve (hc : c.IsBuiltin) {command : Command (Handler τ)}
    {binding : Binding (Handler τ)} {values : List String}
    (hkey : s.aliases.lookup line = none) (hne : line ≠ "") (htrim : Text.trim line = line)
    (hresolve : c.registry.resolve line = some (.invoke command binding values))
    {a : Action τ Unit} (ha : binding.handler values = a) (hdirect : a.Direct) :
    ∃ note, ∀ outcome u, a.effect c (s.record note) = (outcome, u) →
      c.Returns (.dispatch line) s outcome u := by
  rw [← htrim] at hne hresolve
  obtain ⟨note, hnote⟩ := exists_note_of_resolve hne hresolve
  refine ⟨note, fun outcome u heffect => .of_ends hc ?_⟩
  rw [hnote s hkey, ha, hdirect.request_eq, heffect]

/-- A line that sets the font size to a numeral. -/
theorem IsBuiltin.exists_fontSize (hc : c.IsBuiltin) (h : Numeral text)
    (hkey : s.aliases.lookup ("fontsize " ++ text) = none) : ∃ note,
    (∀ size, Builtins.fontSize? text = some size → c.Returns (.dispatch ("fontsize " ++ text)) s
      (.ok ()) ((s.record note).setFontSize c.config size)) ∧
    (Builtins.fontSize? text = none → c.Returns (.dispatch ("fontsize " ++ text)) s
      (.error (Builtins.outOfRange text)) (s.record note)) := by
  obtain ⟨command, binding, hresolve, ha⟩ := hc.resolve_fontSize h
  have htrim := h.trim_line "fontsize" rfl (by decide)
  unfold Builtins.parsed at ha
  cases hsize : Builtins.fontSize? text with
  | some size =>
    rw [hsize] at ha
    obtain ⟨note, hnote⟩ := hc.returns_of_resolve hkey (by simp) htrim hresolve ha
      (Action.direct_doing _)
    refine ⟨note, fun size' heq => ?_, nofun⟩
    obtain rfl := Option.some.inj heq
    exact hnote _ _ (Action.effect_doing c _ _)
  | none =>
    rw [hsize] at ha
    obtain ⟨note, hnote⟩ := hc.returns_of_resolve hkey (by simp) htrim hresolve ha rfl
    exact ⟨note, nofun, fun _ => hnote _ _ rfl⟩

/-- The line for a reset. -/
theorem IsBuiltin.exists_reset (hc : c.IsBuiltin)
    (hkey : s.aliases.lookup "fontsize reset" = none) : ∃ note,
    c.Returns (.dispatch "fontsize reset") s (.ok ())
      ((s.record note).setFontSize c.config c.config.defaultFontSize) := by
  have hsignatures :
      (Builtins.fontSize : CommandDecl (Handler τ)).signatures = [] ++ _ :: [_] := rfl
  have hline : "fontsize reset".toList = "fontsize reset".toList ++ [] := (List.append_nil _).symm
  have hvalues : (Signature.ofTokens "fontsize reset"
      [.word "fontsize", .word "reset"]).captures? "fontsize reset" = some [] := by
    decide +kernel
  obtain ⟨command, binding, hresolve, -, hhandler⟩ :=
    Registry.exists_resolve_of_declared hc.build_fontSize Builtins.refuses_reset.2
      Builtins.refuses_reset.1 hsignatures nofun Builtins.compile_reset hline hvalues
  have ha : binding.handler [] = .doing .resetFontSize := by
    rw [← Option.some.inj hhandler]
  obtain ⟨note, hnote⟩ := hc.returns_of_resolve hkey (by simp) (by decide +kernel) hresolve ha
    (Action.direct_doing _)
  exact ⟨note, hnote _ _ (Action.effect_doing c _ _)⟩

/-- A line for a delay by a numeral succeeds. -/
theorem IsBuiltin.exists_delay [ReadsNumerals τ] (hc : c.IsBuiltin) (h : Numeral text)
    (hkey : s.aliases.lookup ("delay " ++ text) = none) : ∃ amount note,
    Seconds.read? text = some amount ∧ c.Returns (.dispatch ("delay " ++ text)) s (.ok ())
      ((s.record note).requestDelay amount) := by
  obtain ⟨command, binding, hresolve, -, ha⟩ := hc.resolve_delay h
  obtain ⟨amount, hread⟩ := Option.isSome_iff_exists.mp (ReadsNumerals.isSome_read? (τ := τ) h)
  have htrim := h.trim_line "delay" rfl (by decide)
  unfold Builtins.parsed at ha
  rw [hread] at ha
  obtain ⟨note, hnote⟩ := hc.returns_of_resolve hkey (by simp) htrim hresolve ha
    (Action.direct_doing _)
  exact ⟨amount, note, hread, hnote _ _ (Action.effect_doing c _ _)⟩

/-! ### Numerals -/

/-- The line sets the font size, with one attempt to save it. -/
def SetsFontSize (c : Console τ) (line : String) (s : Session τ) (size : Int) : Prop :=
  ∃ log, ∀ op ∈ [Op.dispatch line, .execute line], ∀ outcome u,
    c.Returns op s outcome u ↔ outcome = .ok () ∧ u = s.resized size log

/-- The line fails and leaves the session as it is, but for the log; entered, it shows the error in
one line. -/
def RefusesValue (c : Console τ) (line : String) (s : Session τ) (e : ConsoleError) : Prop :=
  ∃ log log', (∀ outcome u, c.Returns (.dispatch line) s outcome u ↔
      outcome = .error e ∧ u = { s with log }) ∧
    ∀ outcome u, c.Returns (.execute line) s outcome u ↔ outcome = .ok () ∧
      u = { s with emitted := .text .error e.message :: s.emitted, log := log' }

theorem SetsFontSize.of_returns {note : LogLine} {size : Int}
    (h : c.Returns (.dispatch line) s (.ok ()) ((s.record note).setFontSize c.config size)) :
    c.SetsFontSize line s (c.config.clampFontSize size) := by
  obtain ⟨log, hlog⟩ := (s.record note).exists_log_setFontSize c.config size
  rw [hlog] at h
  exact ⟨log, h.entered_iff⟩

theorem RefusesValue.of_returns {note : LogLine} {e : ConsoleError} (he : e.Plain)
    (h : c.Returns (.dispatch line) s (.error e) (s.record note)) : c.RefusesValue line s e := by
  have hentered := returns_execute.mpr ⟨rfl, _, _, h, rfl⟩
  refine ⟨_, .debug s!"Dispatch failed: {e.message}" :: note :: s.log, h.iff_of_returns, ?_⟩
  rw [← he.line_eq]
  exact hentered.iff_of_returns

/-- **Numerals.** Under valid settings, wherever the default font size lies, a console starts from
every record, and every session that is seen then has a font size in the range, which is never
empty. A line that sets the font size to a numeral, however long it is and with any zeros in front,
sets it to the value of the numeral brought into the range, with one attempt to save it, if the
value can be saved; otherwise it fails, which is shown in one line, and changes and saves nothing. A
line for a delay by a numeral never fails, and shows a warning at most. -/
theorem fontSize_numerals [ReadsNumerals τ] (hcheck : c.config.check = .ok ()) :
    (∀ (store : Store) loaded, store.load.1 = .ok loaded →
      ∃ s₀, Session.start c.config store = .ok s₀ ∧ ∀ s, c.Seen s₀ s →
        c.config.minFontSize ≤ s.fontSize ∧ s.fontSize ≤ c.config.maxFontSize) ∧
      (∀ size, c.config.clampFontSize? size =
        some (max c.config.minFontSize (min size c.config.maxFontSize))) ∧
      (c.IsBuiltin → ∀ (s : Session τ) text, Numeral text →
        (s.aliases.lookup ("fontsize " ++ text) = none →
          if Numeral.value text ≤ 2147483647 then
            c.SetsFontSize ("fontsize " ++ text) s
              (max c.config.minFontSize (min (Numeral.value text) c.config.maxFontSize))
          else
            c.RefusesValue ("fontsize " ++ text) s
              (.invalidArgument s!"'{text}' is out of range")) ∧
        (s.aliases.lookup ("delay " ++ text) = none → ∃ u,
          (∀ op ∈ [Op.dispatch ("delay " ++ text), .execute ("delay " ++ text)], ∀ outcome v,
            c.Returns op s outcome v ↔ outcome = .ok () ∧ v = u) ∧
          (u.emitted = s.emitted ∨
            ∃ warning, u.emitted = .line .warning warning :: s.emitted))) := by
  have hrange := Config.min_le_max_of_check hcheck
  refine ⟨fun store loaded hload => ?_, fun size => ?_, fun hc s text h => ⟨fun hkey => ?_,
    fun hkey => ?_⟩⟩
  · have hstart := Session.start_eq_ok_iff.mpr ⟨hcheck, loaded, hload, rfl⟩
    refine ⟨_, hstart, fun s hseen => ?_⟩
    have hsize : c.config.clampFontSize s.fontSize = s.fontSize := (hseen.normal hstart).fontSize
    rw [Config.clampFontSize_eq hrange] at hsize
    omega
  · unfold Config.clampFontSize?
    rw [if_neg (by omega), Config.clampFontSize_eq hrange]
  · obtain ⟨note, hsets, hrefuses⟩ := hc.exists_fontSize h hkey
    rw [Builtins.fontSize?_of_numeral h] at hsets hrefuses
    split
    · next hvalue =>
      rw [← Config.clampFontSize_eq hrange]
      exact .of_returns (hsets _ (if_pos hvalue))
    · next hvalue =>
      exact .of_returns (ConsoleError.plain_outOfRange h.not_lineBreak) (hrefuses (if_neg hvalue))
  · obtain ⟨amount, note, -, hreturns⟩ := hc.exists_delay h hkey
    exact ⟨_, hreturns.entered_iff, (s.record note).emitted_requestDelay amount⟩

/-- Zeros in front, the largest value, one more than that, and a long delay, with a default that is
out of range. -/
theorem fontSize_numerals_bounds :
    let c := exact { Config.standard with defaultFontSize := 1000 }
    let s := Session.remembering c.config .empty
    c.config.check = .ok () ∧ c.SetsFontSize "fontsize 00000000000012" s 12 ∧
      c.SetsFontSize "fontsize 2147483647" s 50 ∧
      c.RefusesValue "fontsize 2147483648" s
        (.invalidArgument "'2147483648' is out of range") ∧
      ∃ u, c.Returns (.execute "delay 100000000000000000000") s (.ok ()) u := by
  intro c s
  have hcheck : c.config.check = .ok () := by decide +kernel
  obtain ⟨-, -, h⟩ := fontSize_numerals hcheck
  have hlines := h (isBuiltin_exact _) s
  refine ⟨hcheck, ?_, ?_, ?_, ?_⟩
  · exact (hlines "00000000000012" (by decide)).1 (by decide +kernel)
  · exact (hlines "2147483647" (by decide)).1 (by decide +kernel)
  · exact (hlines "2147483648" (by decide)).1 (by decide +kernel)
  · obtain ⟨u, hu, -⟩ :=
      (hlines "100000000000000000000" (by decide)).2 (by decide +kernel)
    exact ⟨u, (hu _ (List.mem_cons_of_mem _ List.mem_cons_self) _ _).mpr ⟨rfl, rfl⟩⟩

/-! ### The first run -/

/-- **First run.** Under valid settings a console starts where nothing has been saved yet. The font
size is then that of saved states, brought into the range, and a reset makes it the default of the
settings, brought into the range. They agree if and only if both are the same, or both are not above
or both not below the range, or the range has one size only. -/
theorem fontSize_first_run (hc : c.IsBuiltin) (hcheck : c.config.check = .ok ()) {store : Store}
    (hfresh : store.Fresh) : ∃ s t, Session.start c.config store = .ok s ∧
      (∀ op ∈ [Op.dispatch "fontsize reset", .execute "fontsize reset"], ∀ outcome u,
        c.Returns op s outcome u ↔ outcome = .ok () ∧ u = t) ∧
      s.fontSize = max c.config.minFontSize (min initialFontSize c.config.maxFontSize) ∧
      t.fontSize = max c.config.minFontSize (min c.config.defaultFontSize c.config.maxFontSize) ∧
      (s.fontSize = t.fontSize ↔ c.config.defaultFontSize = initialFontSize ∨
        (c.config.defaultFontSize ≤ c.config.minFontSize ∧
          initialFontSize ≤ c.config.minFontSize) ∨
        (c.config.maxFontSize ≤ c.config.defaultFontSize ∧
          c.config.maxFontSize ≤ initialFontSize) ∨
        c.config.minFontSize = c.config.maxFontSize) := by
  have hrange := Config.min_le_max_of_check hcheck
  obtain ⟨s, hstart, hledger⟩ : ∃ s, Session.start c.config store = .ok s ∧ s.ledger =
      (Session.ofSaved c.config store .initial).ledger :=
    ⟨_, Session.start_eq_ok_iff.mpr ⟨hcheck, .initial, hfresh.load_eq, rfl⟩, rfl⟩
  rw [Session.ledger_ofSaved] at hledger
  have hfirst : s.fontSize = c.config.clampFontSize initialFontSize :=
    congrArg Ledger.fontSize hledger
  have haliases : s.aliases = (AliasTable.ofMap .empty).1 := congrArg Ledger.aliases hledger
  obtain ⟨note, hreset⟩ : ∃ note, c.Returns (.dispatch "fontsize reset") s (.ok ())
      ((s.record note).setFontSize c.config c.config.defaultFontSize) :=
    hc.exists_reset (by rw [haliases]; rfl)
  obtain ⟨log, hlog⟩ := (s.record note).exists_log_setFontSize c.config c.config.defaultFontSize
  have hsecond : ((s.record note).setFontSize c.config c.config.defaultFontSize).fontSize =
      c.config.clampFontSize c.config.defaultFontSize := by
    rw [hlog]
    rfl
  rw [Config.clampFontSize_eq hrange] at hfirst hsecond
  refine ⟨s, _, hstart, hreset.entered_iff, hfirst, hsecond, ?_⟩
  rw [hfirst, hsecond]
  omega

/-- A default of 20: the first font size is 8, and 20 after a reset. -/
theorem fontSize_first_run_default :
    let c := exact { Config.standard with defaultFontSize := 20 }
    c.config.check = .ok () ∧ (Store.memory {}).Fresh ∧ ∃ s t,
      Session.start c.config (.memory {}) = .ok s ∧
        c.Returns (.execute "fontsize reset") s (.ok ()) t ∧ s.fontSize = 8 ∧ t.fontSize = 20 := by
  intro c
  have hcheck : c.config.check = .ok () := by decide +kernel
  have hfresh : (Store.memory {}).Fresh := .memory rfl rfl
  obtain ⟨s, t, hstart, hreset, hfirst, hsecond, -⟩ :=
    fontSize_first_run (isBuiltin_exact _) hcheck hfresh
  refine ⟨hcheck, hfresh, s, t, hstart, ?_, ?_, ?_⟩
  · exact (hreset _ (List.mem_cons_of_mem _ List.mem_cons_self) _ _).mpr ⟨rfl, rfl⟩
  · rw [hfirst]
    decide +kernel
  · rw [hsecond]
    decide +kernel

end Console

end CommandConsole

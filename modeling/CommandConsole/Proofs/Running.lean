import CommandConsole.Console.Fuel
import CommandConsole.Proofs.Unfolding

/-!
# CommandConsole.Proofs.Running — every line comes to an end

With the built-in commands a line always ends: `exec` runs shorter lines, and an alias runs its
statements one level deeper, of which there are only so many. What it does is a run of the worklist,
whatever the aliases are and however they change meanwhile.

* `Console.Runs`: statements in turn, whatever the fuel, with a rule for each way to go on.
* `Console.IsBuiltin.dispatch_eq`: what a line does, in terms of what it asks for.
* `Console.IsBuiltin.described`: every line ends, and as the worklist does.
* `Console.Returns.taken`, `Console.Runs.ends`: so whatever ends has done that.
-/

namespace CommandConsole

variable {τ : Type} [Seconds τ]

namespace Console

/-- The statements run in turn, with this outcome, and leave this session. -/
def Runs (c : Console τ) (statements : List String) (s : Session τ) (outcome : Outcome)
    (t : Session τ) : Prop :=
  ∃ fuel, runStatements (fun text => c.perform fuel (.dispatch text)) statements s =
    some (outcome, t)

variable {c : Console τ} {s t u : Session τ} {outcome : Outcome} {statement : String}
  {statements : List String}

/-! ### Rules for statements -/

namespace Runs

/-- From some fuel on, statements that end give the same answer. -/
theorem stable (h : c.Runs statements s outcome t) : ∃ least, ∀ fuel, least ≤ fuel →
    runStatements (fun text => c.perform fuel (.dispatch text)) statements s =
      some (outcome, t) := by
  obtain ⟨least, hl⟩ := h
  refine ⟨least, fun fuel hf => ?_⟩
  exact runStatements_extends (fun text => perform_extends hf (.dispatch text)) _ _ _ hl

theorem unique (ht : c.Runs statements s outcome t) {outcome' : Outcome}
    (hu : c.Runs statements s outcome' u) : outcome = outcome' ∧ t = u := by
  obtain ⟨m, hm⟩ := ht.stable
  obtain ⟨n, hn⟩ := hu.stable
  have h := hm _ (Nat.le_max_left m n)
  rw [hn _ (Nat.le_max_right m n)] at h
  cases h
  exact ⟨rfl, rfl⟩

theorem nil (s : Session τ) : c.Runs [] s (.ok ()) s := ⟨0, rfl⟩

theorem park (hw : s.sequencer.isWaiting = true) (statement : String) (statements : List String) :
    c.Runs (statement :: statements) s (.ok ()) (s.park (statement :: statements)) := by
  refine ⟨0, ?_⟩
  unfold runStatements
  exact if_pos hw

theorem goes_on (hw : s.sequencer.isWaiting = false) (ho : GoesOn outcome)
    (hd : c.Returns (.dispatch statement) s outcome t) {outcome' : Outcome}
    (hr : c.Runs statements (t.reportFailure outcome) outcome' u) :
    c.Runs (statement :: statements) s outcome' u := by
  obtain ⟨m, hm⟩ := hd.stable
  obtain ⟨n, hn⟩ := hr.stable
  refine ⟨max m n, ?_⟩
  have later := hn _ (Nat.le_max_right m n)
  unfold runStatements
  rw [if_neg (by simp [hw]), hm _ (Nat.le_max_left m n)]
  cases outcome with
  | ok _ => exact later
  | error e =>
    dsimp only
    rw [if_neg (by simp [ho e rfl])]
    exact later

theorem abort (hw : s.sequencer.isWaiting = false) {e : ConsoleError}
    (he : e.isRecursionLimit = true) (hd : c.Returns (.dispatch statement) s (.error e) t)
    (statements : List String) : c.Runs (statement :: statements) s (.error e) t := by
  obtain ⟨fuel, hf⟩ := hd
  refine ⟨fuel, ?_⟩
  unfold runStatements
  rw [if_neg (by simp [hw]), hf]
  exact if_pos he

end Runs

theorem returns_runSequence {text : String} :
    c.Returns (.runSequence text) s outcome t ↔ c.Runs (Text.statements text) s outcome t := by
  constructor
  · rintro ⟨fuel, hf⟩
    cases fuel with
    | zero => cases hf
    | succ fuel => exact ⟨fuel, hf⟩
  · rintro ⟨fuel, hf⟩
    exact ⟨fuel + 1, hf⟩

theorem returns_primitive {p : Primitive τ} :
    c.Returns (.primitive p) s outcome t ↔ p.apply c.config s = (outcome, t) := by
  constructor
  · rintro ⟨fuel, hf⟩
    cases fuel with
    | zero => cases hf
    | succ fuel => exact Option.some.inj hf
  · intro h
    exact ⟨1, congrArg some h⟩

/-- Entering a line is running it and telling the user about its error. -/
theorem returns_execute {line : String} : c.Returns (.execute line) s outcome t ↔
    outcome = .ok () ∧ ∃ outcome' u, c.Returns (.dispatch line) s outcome' u ∧
      t = u.reportFailure outcome' := by
  constructor
  · rintro ⟨fuel, hf⟩
    cases fuel with
    | zero => cases hf
    | succ fuel =>
      unfold perform execute at hf
      dsimp only at hf
      split at hf
      · cases hf
      · next outcome' u hu =>
        cases hf
        exact ⟨rfl, outcome', u, ⟨fuel, hu⟩, rfl⟩
  · rintro ⟨rfl, outcome', u, ⟨fuel, hf⟩, rfl⟩
    refine ⟨fuel + 1, ?_⟩
    unfold perform execute
    dsimp only
    rw [hf]

theorem Returns.iff_of_returns {op : Op τ} (h : c.Returns op s outcome t) (outcome' : Outcome)
    (u : Session τ) : c.Returns op s outcome' u ↔ outcome' = outcome ∧ u = t :=
  ⟨fun hu => hu.unique h, fun ⟨ho, hu⟩ => ho ▸ hu ▸ h⟩

/-- A line that succeeds does the same when it is entered, as nothing is reported. -/
theorem Returns.entered_iff {text : String} (h : c.Returns (.dispatch text) s (.ok ()) t) :
    ∀ op ∈ [Op.dispatch text, .execute text], ∀ outcome u,
      c.Returns op s outcome u ↔ outcome = .ok () ∧ u = t :=
  List.forall_mem_cons.mpr ⟨h.iff_of_returns,
    List.forall_mem_singleton.mpr (returns_execute.mpr ⟨rfl, .ok (), t, h, rfl⟩).iff_of_returns⟩

/-- The session in which the command bound to a hook is run. -/
def firing (hook : LifecycleHook) (command : String) (s : Session τ) : Session τ :=
  s.record (.info s!"Firing {hook.name}: {command}")

/-- Firing a hook is running the statements of its command, if it has one. -/
theorem returns_fire {hook : LifecycleHook} : c.Returns (.fire hook) s outcome t ↔
    outcome = .ok () ∧ match s.hooks.command hook with
      | none => t = s
      | some command => ∃ outcome' u,
        c.Runs (Text.statements command) (firing hook command s) outcome' u ∧
          t = u.reportFailure outcome' := by
  constructor
  · rintro ⟨fuel, hf⟩
    cases fuel with
    | zero => cases hf
    | succ fuel =>
      unfold perform fire at hf
      dsimp only at hf
      cases hh : s.hooks.command hook with
      | none =>
        rw [hh] at hf
        cases hf
        exact ⟨rfl, rfl⟩
      | some command =>
        rw [hh] at hf
        dsimp only at hf
        split at hf
        · cases hf
        · next outcome' u hu =>
          cases hf
          exact ⟨rfl, outcome', u, ⟨fuel, hu⟩, rfl⟩
  · rintro ⟨rfl, h⟩
    cases hh : s.hooks.command hook with
    | none =>
      rw [hh] at h
      refine ⟨1, ?_⟩
      unfold perform fire
      dsimp only
      rw [hh, h]
    | some command =>
      rw [hh] at h
      obtain ⟨outcome', u, ⟨fuel, hf⟩, rfl⟩ := h
      refine ⟨fuel + 1, ?_⟩
      unfold firing at hf
      unfold perform fire
      dsimp only
      rw [hh]
      dsimp only
      rw [hf]

/-- Entering the composed line empties the prompt, and enters the line unless it is blank. -/
theorem returns_submit (h : c.Returns .submit s outcome t) : outcome = .ok () ∧
    (t = { s with prompt := s.prompt.submit.2 } ∨ c.Returns (.execute s.prompt.submit.1)
      ({ s with prompt := s.prompt.submit.2 }.print .highlight
        (c.config.prompt ++ s.prompt.submit.1)) (.ok ()) t) := by
  obtain ⟨fuel, hf⟩ := h
  cases fuel with
  | zero => cases hf
  | succ fuel =>
    unfold perform submit at hf
    dsimp only at hf
    split at hf
    · cases hf
      exact ⟨rfl, Or.inl rfl⟩
    · have entered : c.Returns (.execute s.prompt.submit.1) _ outcome t := ⟨fuel + 1, hf⟩
      obtain ⟨rfl, -⟩ := returns_execute.mp entered
      exact ⟨rfl, Or.inr entered⟩

/-! ### Rules for lines -/

/-- What a line does, in terms of what it asks for. -/
theorem IsBuiltin.dispatch_eq (hc : c.IsBuiltin) {perform : Op τ → Session τ → Result τ Outcome}
    {run : List String → Session τ → Result τ Outcome}
    (hp : ∀ p s, perform (.primitive p) s = some (p.apply c.config s))
    (hr : ∀ text s, perform (.runSequence text) s = run (Text.statements text) s)
    (line : String) (s : Session τ) : c.dispatch perform line s =
      match c.request line s with
      | (.ends outcome, t) => some (outcome, t)
      | (.sequence statements, t) => run statements t
      | (.expansion name statements, t) =>
        c.expandAlias (fun statement => perform (.dispatch statement)) name statements t := by
  unfold dispatch request
  dsimp only
  split
  · rfl
  · cases s.aliases.expand (Text.trim line) with
    | some statements => rfl
    | none =>
      cases hres : c.registry.resolve (Text.trim line) with
      | none => rfl
      | some resolution =>
        cases resolution with
        | help command => rfl
        | invoke command binding values =>
          dsimp only
          rcases hc.handler_cases hres with hd | ⟨text, hx, -⟩
          · rw [hd.request_eq, hd.run_eq c hp]
          · rw [hx, Action.run_call, hr]
            rfl

/-- What a line does with fuel to spare. -/
theorem IsBuiltin.perform_dispatch (hc : c.IsBuiltin) (fuel : Nat) (line : String)
    (s : Session τ) : c.perform (fuel + 2) (.dispatch line) s =
      match c.request line s with
      | (.ends outcome, t) => some (outcome, t)
      | (.sequence statements, t) =>
        runStatements (fun text => c.perform fuel (.dispatch text)) statements t
      | (.expansion name statements, t) =>
        c.expandAlias (fun text => c.perform (fuel + 1) (.dispatch text)) name statements t := by
  have primitive (p : Primitive τ) (s : Session τ) :
      c.perform (fuel + 1) (.primitive p) s = some (p.apply c.config s) := rfl
  have sequence (text : String) (s : Session τ) : c.perform (fuel + 1) (.runSequence text) s =
      runStatements (fun text => c.perform fuel (.dispatch text)) (Text.statements text) s := rfl
  exact hc.dispatch_eq primitive sequence line s

section Lines

variable (hc : c.IsBuiltin) {line name : String}

include hc

theorem Returns.of_ends (h : c.request line s = (.ends outcome, t)) :
    c.Returns (.dispatch line) s outcome t := by
  refine ⟨2, ?_⟩
  rw [hc.perform_dispatch, h]

theorem Returns.of_sequence (h : c.request line s = (.sequence statements, t))
    (hr : c.Runs statements t outcome u) : c.Returns (.dispatch line) s outcome u := by
  obtain ⟨fuel, hf⟩ := hr
  refine ⟨fuel + 2, ?_⟩
  rw [hc.perform_dispatch, h]
  exact hf

theorem Returns.of_refused (h : c.request line s = (.expansion name statements, t))
    (hd : c.config.maxAliasDepth ≤ s.depth) :
    c.Returns (.dispatch line) s (.error (.recursionLimit name c.config.maxAliasDepth)) s := by
  obtain ⟨-, -, rfl⟩ := request_expansion h
  refine ⟨2, ?_⟩
  rw [hc.perform_dispatch, h]
  exact if_pos hd

theorem Returns.of_expansion (h : c.request line s = (.expansion name statements, t))
    (hd : ¬ c.config.maxAliasDepth ≤ s.depth)
    (hr : c.Runs statements
      { s.record (expansionNote name statements.length s.depth) with depth := s.depth + 1 }
      outcome u) :
    c.Returns (.dispatch line) s outcome { u with depth := u.depth - 1 } := by
  obtain ⟨-, -, rfl⟩ := request_expansion h
  obtain ⟨least, hl⟩ := hr.stable
  refine ⟨least + 2, ?_⟩
  rw [hc.perform_dispatch, h]
  have nested := hl (least + 1) (Nat.le_succ least)
  unfold expansionNote at nested
  show c.expandAlias _ name statements t = _
  unfold expandAlias
  dsimp only
  rw [if_neg hd, nested]

end Lines

/-! ### Lines as work -/

/-- What a run of statements makes of an outcome: it reports failures and goes on, except that
aliases nested too deep end it. -/
def caught (outcome : Outcome) (s : Session τ) : Outcome × Session τ :=
  match outcome with
  | .ok () => (.ok (), s)
  | .error e => if e.isRecursionLimit then (.error e, s) else (.ok (), s.report e)

omit [Seconds τ] in
theorem caught_of_limit {e : ConsoleError} (he : e.isRecursionLimit = true) (s : Session τ) :
    caught (.error e) s = (.error e, s) := if_pos he

omit [Seconds τ] in
theorem caught_of_goesOn (ho : GoesOn outcome) (s : Session τ) :
    caught outcome s = (.ok (), s.reportFailure outcome) := by
  cases outcome with
  | ok _ => rfl
  | error e => exact if_neg (by simp [ho e rfl])

theorem Ends.caught_eq {work trace : List Entry} (h : c.Ends work s trace outcome t) :
    caught outcome t = (outcome, t) := by
  rcases h.ok_or with rfl | ⟨name, rfl⟩ <;> rfl

/-- An entry is taken at once, even if sequences wait. -/
inductive Taken (c : Console τ) (e : Entry) (s : Session τ) :
    List Entry → Outcome → Session τ → Prop
  | refused {name : String} : (c.step e s).1 = .tooDeep name →
      Taken c e s [] (.error (.recursionLimit name c.config.maxAliasDepth)) s
  | onto {front trace : List Entry} {t u : Session τ} {outcome : Outcome} :
      c.step e s = (.onto front, t) → c.Ends front t trace outcome u →
      Taken c e s (e :: trace) outcome u

theorem Taken.ends {e : Entry} {trace : List Entry} (h : c.Taken e s trace outcome t)
    (hw : s.sequencer.isWaiting = false) : c.Ends [e] s trace outcome t := by
  cases h with
  | refused hs => exact .refused (.stop _ _) ⟨hw, e, [], rfl, hs⟩
  | onto hs h => exact .cons hw hs h

/-- A line ends, and does what taking it from the work does. -/
def Described (c : Console τ) (line : String) (s : Session τ) : Prop :=
  ∃ outcome t, c.Returns (.dispatch line) s outcome t ∧
    ∃ trace, c.Taken ⟨line, s.depth⟩ s trace (caught outcome t).1 (caught outcome t).2

/-- Statements whose lines end also end, and do what a run of the work does. -/
theorem exists_runs (hc : c.IsBuiltin) {depth : Nat} (hs : s.depth = depth)
    (h : ∀ statement ∈ statements, ∀ s : Session τ, s.depth = depth → c.Described statement s) :
    ∃ outcome t, c.Runs statements s outcome t ∧
      ∃ trace, c.Ends (entries statements depth) s trace outcome t := by
  induction statements generalizing s with
  | nil => exact ⟨.ok (), s, .nil s, [], .of_unfolds (.stop [] s)⟩
  | cons statement statements ih =>
    cases hw : s.sequencer.isWaiting with
    | true =>
      refine ⟨_, _, .park hw statement statements, [], ?_⟩
      rw [Session.park_eq, hs]
      refine .parked ?_ (Or.inr hw) (by simp)
      rw [worklist_singleton]
      exact .stop _ _
    | false =>
      obtain ⟨outcome, t, hr, trace, htaken⟩ := h statement (by simp) s hs
      have hends := htaken.ends hw
      rw [hs] at hends
      rcases goesOn_or outcome with ho | ⟨e, rfl, he⟩
      · rw [caught_of_goesOn ho] at hends
        dsimp only at hends
        obtain ⟨queue, x, hx, hrun, hq, hne⟩ := hends.exists_of_ok
        cases queue with
        | nil =>
          -- the line is done and the next one runs, or is parked, after it
          rw [Session.parkAll_nil] at hx
          obtain ⟨outcome', u, hr', trace', hends'⟩ := ih ((hrun.depth_eq hc).trans hs)
            fun statement' hm => h statement' (by simp [hm])
          rw [← hx] at hr'
          exact ⟨outcome', u, .goes_on hw ho hr hr', trace ++ trace',
            .after (hrun.append (entries statements depth)) hends'⟩
        | cons q queue =>
          have hwait : x.sequencer.isWaiting = true := hq.resolve_left (by simp)
          cases statements with
          | nil => exact ⟨_, _, .goes_on hw ho hr (.nil _), trace, hends⟩
          | cons next later =>
            -- what the line left comes first, and what stands behind it is parked behind that
            have hwait' : (t.reportFailure outcome).sequencer.isWaiting = true := by
              rw [hx]
              exact hwait
            refine ⟨_, _, .goes_on hw ho hr (.park hwait' next later), trace, ?_⟩
            have hdepth : (x.parkAll (q :: queue)).depth = depth := (hrun.depth_eq hc).trans hs
            rw [hx, Session.park_eq, Session.parkAll_parkAll, hdepth]
            refine .parked ?_ (Or.inr hwait) ?_
            · rw [worklist_append, worklist_singleton]
              exact hrun.append (entries (next :: later) depth)
            · intro q' hq'
              rcases List.mem_append.mp hq' with hq' | hq'
              · exact hne q' hq'
              · rw [List.mem_singleton.mp hq']
                exact List.cons_ne_nil next later
      · rw [caught_of_limit he] at hends
        exact ⟨_, _, .abort hw he hr statements, trace, hends.append_of_error _⟩

/-- **Termination**: every line ends, and does what taking it from the work does. -/
theorem IsBuiltin.described (hc : c.IsBuiltin) (line : String) (s : Session τ) :
    c.Described line s := by
  cases hr : c.request line s with
  | mk request t =>
    cases request with
    | ends outcome =>
      have ho : GoesOn outcome := hc.goesOn_request hr
      refine ⟨outcome, t, .of_ends hc hr, [⟨line, s.depth⟩], ?_⟩
      rw [caught_of_goesOn ho]
      exact .onto (step_ends hr) (.of_unfolds (.stop [] _))
    | sequence statements =>
      -- the statements are on the same level and shorter than the line
      have hdepth : t.depth = s.depth := by
        rw [← (hc.uniform_request line).depth_eq s, hr]
      obtain ⟨outcome, u, hruns, trace, hends⟩ := exists_runs hc hdepth
        fun statement hm s' hs' => described hc statement s'
      refine ⟨outcome, u, .of_sequence hc hr hruns, ⟨line, s.depth⟩ :: trace, ?_⟩
      rw [hends.caught_eq]
      exact .onto (step_sequence hr) hends
    | expansion name statements =>
      by_cases hd : c.config.maxAliasDepth ≤ s.depth
      · refine ⟨_, _, .of_refused hc hr hd, [], ?_⟩
        rw [caught_of_limit rfl]
        exact .refused (congrArg Prod.fst (step_refused (e := ⟨line, s.depth⟩) hr hd))
      · -- the statements are one level deeper, where the limit is closer
        let deeper : Session τ :=
          { s.record (expansionNote name statements.length s.depth) with depth := s.depth + 1 }
        have hdeeper : deeper.depth = s.depth + 1 := rfl
        obtain ⟨outcome, u, hruns, trace, hends⟩ := exists_runs hc hdeeper
          fun statement hm s' hs' => described hc statement s'
        have hdepth : u.depth = s.depth + 1 := hends.depth_eq hc
        have hback := hends.at_depth hc (u.depth - 1)
        rw [hdepth, Nat.add_sub_cancel] at hback
        refine ⟨_, _, .of_expansion hc hr hd hruns, ⟨line, s.depth⟩ :: trace, ?_⟩
        rw [hdepth, Nat.add_sub_cancel, hback.caught_eq]
        exact .onto (step_expansion (e := ⟨line, s.depth⟩) hr hd) hback
  termination_by (c.config.maxAliasDepth - s.depth, line.length)
  decreasing_by
    · rw [hs']
      exact Prod.Lex.right _ (hc.length_lt_of_sequence hr statement hm)
    · exact Prod.Lex.left _ _ (by omega)

/-- Statements end, and do what a run of the work does. -/
theorem IsBuiltin.exists_statements (hc : c.IsBuiltin) (statements : List String)
    (s : Session τ) : ∃ outcome t, c.Runs statements s outcome t ∧
      ∃ trace, c.Ends (entries statements s.depth) s trace outcome t :=
  exists_runs hc rfl fun statement _ s' _ => hc.described statement s'

theorem Returns.taken {line : String} (h : c.Returns (.dispatch line) s outcome t)
    (hc : c.IsBuiltin) :
    ∃ trace, c.Taken ⟨line, s.depth⟩ s trace (caught outcome t).1 (caught outcome t).2 := by
  obtain ⟨outcome', t', hr, htaken⟩ := hc.described line s
  obtain ⟨rfl, rfl⟩ := hr.unique h
  exact htaken

theorem Runs.ends (h : c.Runs statements s outcome t) (hc : c.IsBuiltin) :
    ∃ trace, c.Ends (entries statements s.depth) s trace outcome t := by
  obtain ⟨outcome', t', hr, hends⟩ := hc.exists_statements statements s
  obtain ⟨rfl, rfl⟩ := hr.unique h
  exact hends

end Console

end CommandConsole

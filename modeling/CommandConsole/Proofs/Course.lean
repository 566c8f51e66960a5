import CommandConsole.Proofs.Resumption

/-!
# CommandConsole.Proofs.Course — what happens in a run, and where it comes from

A run nests: lines expand aliases, handlers run lines, let time pass and fire hooks, and time
resumes what is parked. The course of a run lists the operations and expansions in it, in the order
in which they happen. Each of them, and each parked sequence, has a path: the aliases whose
expansions lead to it. A sequence keeps its path while it is parked, and is resumed on it, wherever
time passes.

Nothing is assumed of handlers here.

* `Console.Course`: what is run on a path, what happens in it, and what it comes to.
* `Console.Returns.exists_course`: every operation that ends has a course.
* `Console.Course.startsIn`: every operation that starts in a run has a course of its own in it.
* `Console.Course.depth_eq`: whatever is run leaves the depth as it was.
* `Console.Course.nonempty`: whatever is parked has statements left.
-/

namespace CommandConsole

variable {τ : Type}

/-- The aliases whose expansions lead to a statement, outermost first. -/
abbrev Path := List String

/-- What can be run. -/
inductive Job (τ : Type) where
  | op (op : Op τ)
  /-- Statements in turn. -/
  | statements (list : List String)
  /-- What a handler does. -/
  | action (a : Action τ Unit)
  /-- The sequences that are due. -/
  | due

/-- What can happen in a run. -/
inductive Occasion (τ : Type) where
  /-- An operation starts. -/
  | starts (op : Op τ)
  /-- An alias is expanded. -/
  | expands (name : String)
  /-- An alias is not expanded, as it would nest too deep. -/
  | refuses (name : String)

/-- Something that happens, on which path, and the session just before. -/
structure Moment (τ : Type) where
  occasion : Occasion τ
  path : Path
  session : Session τ

/-- The log line about a handler. -/
def Binding.note (b : Binding (Handler τ)) (command : Command (Handler τ)) (line : String) :
    LogLine :=
  .debug s!"Dispatching '{line}' to {command.name} [{b.signature.display}]"

variable [Seconds τ]

/-! ### What is due -/

theorem Sequencer.of_popReady?_none {q : Sequencer τ} (h : q.popReady? = none) :
    q.parked = [] ∨ q.isWaiting = true := by
  unfold popReady? at h
  split at h
  · next hw => exact Or.inr hw
  · split at h
    · next hnil => exact Or.inl hnil
    · cases h

theorem Sequencer.of_popReady?_some {q q' : Sequencer τ} {task : ParkedSequence}
    (h : q.popReady? = some (task, q')) : q.isWaiting = false ∧
      ∃ behind, q.parked = task :: behind ∧ q' = { q with parked := behind } := by
  unfold popReady? at h
  split at h
  · cases h
  · next hw =>
    split at h
    · cases h
    · next hparked =>
      cases h
      exact ⟨by simpa using hw, _, hparked, rfl⟩

/-! ### Courses -/

/-- The session in which the statements of an alias run. -/
def Session.expanding (s : Session τ) (name : String) (count : Nat) : Session τ :=
  { s.record (Console.expansionNote name count s.depth) with depth := s.depth + 1 }

/-- The session with the composed line handed over. -/
def Session.emptied (s : Session τ) : Session τ := { s with prompt := s.prompt.submit.2 }

namespace Console

/-- What is run on a path in a session, with the paths of the parked sequences from front to back:
what happens, the outcome, and the session and the paths of what is parked then. -/
inductive Course (c : Console τ) : Job τ → Path → Session τ → List Path →
    List (Moment τ) → Outcome → Session τ → List Path → Prop
  | primitive {p path s t origins outcome} : p.apply c.config s = (outcome, t) →
      Course c (.op (.primitive p)) path s origins
        [⟨.starts (.primitive p), path, s⟩] outcome t origins
  | blank {text path s origins} : Text.trim text = "" →
      Course c (.op (.dispatch text)) path s origins
        [⟨.starts (.dispatch text), path, s⟩] (.ok ()) s origins
  | refused {text name statements path s origins} : Text.trim text = name → name ≠ "" →
      s.aliases.expand name = some statements → c.config.maxAliasDepth ≤ s.depth →
      Course c (.op (.dispatch text)) path s origins
        [⟨.starts (.dispatch text), path, s⟩, ⟨.refuses name, path, s⟩]
        (.error (.recursionLimit name c.config.maxAliasDepth)) s origins
  | expanded {text name statements path s t origins origins' moments outcome} :
      Text.trim text = name → name ≠ "" → s.aliases.expand name = some statements →
      ¬ c.config.maxAliasDepth ≤ s.depth →
      Course c (.statements statements) (path ++ [name]) (s.expanding name statements.length)
        origins moments outcome t origins' →
      Course c (.op (.dispatch text)) path s origins
        (⟨.starts (.dispatch text), path, s⟩ :: ⟨.expands name, path, s⟩ :: moments)
        outcome { t with depth := t.depth - 1 } origins'
  | unresolved {text line path s origins} : Text.trim text = line → line ≠ "" →
      s.aliases.expand line = none → c.registry.resolve line = none →
      Course c (.op (.dispatch text)) path s origins
        [⟨.starts (.dispatch text), path, s⟩] (.error .dispatchRejected) s origins
  | help {text line command path s origins} : Text.trim text = line → line ≠ "" →
      s.aliases.expand line = none → c.registry.resolve line = some (.help command) →
      Course c (.op (.dispatch text)) path s origins
        [⟨.starts (.dispatch text), path, s⟩] (.ok ()) (s.info command.helpText) origins
  | invoked {text line command binding values path s t origins origins' moments outcome} :
      Text.trim text = line → line ≠ "" → s.aliases.expand line = none →
      c.registry.resolve line = some (.invoke command binding values) →
      Course c (.action (binding.handler values)) path (s.record (binding.note command line))
        origins moments outcome t origins' →
      Course c (.op (.dispatch text)) path s origins
        (⟨.starts (.dispatch text), path, s⟩ :: moments) outcome t origins'
  | execute {text path s t origins origins' moments outcome} :
      Course c (.op (.dispatch text)) path s origins moments outcome t origins' →
      Course c (.op (.execute text)) path s origins
        (⟨.starts (.execute text), path, s⟩ :: moments) (.ok ()) (t.reportFailure outcome) origins'
  | runSequence {text path s t origins origins' moments outcome} :
      Course c (.statements (Text.statements text)) path s origins moments outcome t origins' →
      Course c (.op (.runSequence text)) path s origins
        (⟨.starts (.runSequence text), path, s⟩ :: moments) outcome t origins'
  | tick {e path s t origins origins' moments} :
      Course c .due path (s.advance e) origins moments (.ok ()) t origins' →
      Course c (.op (.tick e)) path s origins
        (⟨.starts (.tick e), path, s⟩ :: moments) (.ok ()) t origins'
  | unbound {hook path s origins} : s.hooks.command hook = none →
      Course c (.op (.fire hook)) path s origins
        [⟨.starts (.fire hook), path, s⟩] (.ok ()) s origins
  | fired {hook command path s t origins origins' moments outcome} :
      s.hooks.command hook = some command →
      Course c (.statements (Text.statements command)) path (firing hook command s)
        origins moments outcome t origins' →
      Course c (.op (.fire hook)) path s origins
        (⟨.starts (.fire hook), path, s⟩ :: moments) (.ok ()) (t.reportFailure outcome) origins'
  | ignored {path s origins} : Text.isBlankText s.prompt.submit.1 = true →
      Course c (.op .submit) path s origins [⟨.starts .submit, path, s⟩] (.ok ()) s.emptied origins
  | submitted {path s t origins origins' moments outcome} :
      Text.isBlankText s.prompt.submit.1 = false →
      Course c (.op (.dispatch s.prompt.submit.1)) path
        (s.emptied.print .highlight (c.config.prompt ++ s.prompt.submit.1))
        origins moments outcome t origins' →
      Course c (.op .submit) path s origins
        (⟨.starts .submit, path, s⟩ :: moments) (.ok ()) (t.reportFailure outcome) origins'
  | nil {path s origins} : Course c (.statements []) path s origins [] (.ok ()) s origins
  | park {statement statements path s origins} : s.sequencer.isWaiting = true →
      Course c (.statements (statement :: statements)) path s origins
        [] (.ok ()) (s.park (statement :: statements)) (origins ++ [path])
  | goesOn {statement statements path s t u origins origins' origins'' moments moments' outcome
      outcome'} : s.sequencer.isWaiting = false → GoesOn outcome →
      Course c (.op (.dispatch statement)) path s origins moments outcome t origins' →
      Course c (.statements statements) path (t.reportFailure outcome)
        origins' moments' outcome' u origins'' →
      Course c (.statements (statement :: statements)) path s origins
        (moments ++ moments') outcome' u origins''
  | abort {statement statements path s t origins origins' moments e} :
      s.sequencer.isWaiting = false → e.isRecursionLimit = true →
      Course c (.op (.dispatch statement)) path s origins moments (.error e) t origins' →
      Course c (.statements (statement :: statements)) path s origins moments (.error e) t origins'
  | done {path s origins} : Course c (.action (.done ())) path s origins [] (.ok ()) s origins
  | fail {e path s origins} : Course c (.action (.fail e)) path s origins [] (.error e) s origins
  | perform {op next path s t u origins origins' origins'' moments moments' outcome outcome'} :
      Course c (.op op) path s origins moments outcome t origins' →
      Course c (.action (next outcome)) path t origins' moments' outcome' u origins'' →
      Course c (.action (.perform op next)) path s origins
        (moments ++ moments') outcome' u origins''
  | look {next path s t origins origins' moments outcome} :
      Course c (.action (next (c.view s))) path s origins moments outcome t origins' →
      Course c (.action (.look next)) path s origins moments outcome t origins'
  | settled {path s origins} : s.sequencer.parked = [] ∨ s.sequencer.isWaiting = true →
      Course c .due path s origins [] (.ok ()) s origins
  | resumed {q behind path origin s t u origins origins' origins'' moments moments' outcome} :
      s.sequencer.isWaiting = false → s.sequencer.parked = q :: behind →
      Course c (.statements q.statements) origin (s.resuming q) [] moments outcome t origins' →
      Course c .due path ((t.reportFailure outcome).putBack behind s.depth) (origins' ++ origins)
        moments' (.ok ()) u origins'' →
      Course c .due path s (origin :: origins) (moments ++ moments') (.ok ()) u origins''

/-! ### Every operation that ends has a course -/

/-- Whatever the path and the paths of what is parked, the job has a course that ends like this. -/
def Traced (c : Console τ) (job : Job τ) (s : Session τ) (outcome : Outcome) (t : Session τ) :
    Prop :=
  ∀ path origins, origins.length = s.sequencer.parked.length → ∃ moments origins',
    c.Course job path s origins moments outcome t origins' ∧
      origins'.length = t.sequencer.parked.length

variable {c : Console τ} {s t u : Session τ} {outcome : Outcome}

omit [Seconds τ] in
theorem parked_reportFailure (s : Session τ) (outcome : Outcome) :
    (s.reportFailure outcome).sequencer.parked = s.sequencer.parked :=
  congrArg Sequencer.parked (s.sequencer_reportFailure outcome)

omit [Seconds τ] in
theorem depth_reportFailure (s : Session τ) (outcome : Outcome) :
    (s.reportFailure outcome).depth = s.depth := by
  cases outcome <;> rfl

theorem traced_primitive {p : Primitive τ} (h : p.apply c.config s = (outcome, t)) :
    c.Traced (.op (.primitive p)) s outcome t := by
  intro path origins hlen
  have hparked := (p.uniform_apply c.config).parked_eq s
  rw [h] at hparked
  exact ⟨_, origins, .primitive h, by rw [hparked, hlen]⟩

section Statements

variable {run : String → Session τ → Result τ Outcome}
  (h : ∀ {text s outcome t}, run text s = some (outcome, t) →
    c.Traced (.op (.dispatch text)) s outcome t)

include h

theorem traced_statements {statements : List String}
    (hr : runStatements run statements s = some (outcome, t)) :
    c.Traced (.statements statements) s outcome t := by
  induction statements generalizing s with
  | nil =>
    cases hr
    exact fun path origins hlen => ⟨[], origins, .nil, hlen⟩
  | cons statement statements ih =>
    intro path origins hlen
    unfold runStatements at hr
    cases hw : s.sequencer.isWaiting with
    | true =>
      rw [if_pos hw] at hr
      cases hr
      refine ⟨[], origins ++ [path], .park hw, ?_⟩
      show (origins ++ [path]).length = (s.sequencer.parked ++ [_]).length
      rw [List.length_append, List.length_append, hlen]
      rfl
    | false =>
      rw [if_neg (by simp [hw])] at hr
      cases hf : run statement s with
      | none =>
        rw [hf] at hr
        cases hr
      | some answer =>
        obtain ⟨first, x⟩ := answer
        rw [hf] at hr
        obtain ⟨moments, origins', hcourse, hlen'⟩ := h hf path origins hlen
        rcases goesOn_or first with ho | ⟨e, rfl, he⟩
        · have later :
              runStatements run statements (x.reportFailure first) = some (outcome, t) := by
            cases first with
            | ok _ => exact hr
            | error e =>
              dsimp only at hr
              rwa [if_neg (by simp [ho e rfl])] at hr
          rw [← parked_reportFailure x first] at hlen'
          obtain ⟨moments', origins'', hcourse', hlen''⟩ := ih later path origins' hlen'
          exact ⟨_, origins'', .goesOn hw ho hcourse hcourse', hlen''⟩
        · simp only [if_pos he] at hr
          cases hr
          exact ⟨moments, origins', .abort hw he hcourse, hlen'⟩

end Statements

section Lines

variable {perform : Op τ → Session τ → Result τ Outcome}
  (h : ∀ {op s outcome t}, perform op s = some (outcome, t) → c.Traced (.op op) s outcome t)

include h

theorem traced_action {a : Action τ Unit} (hr : a.run perform c.view s = some (outcome, t)) :
    c.Traced (.action a) s outcome t := by
  induction a generalizing s with
  | done value =>
    cases hr
    exact fun path origins hlen => ⟨[], origins, .done, hlen⟩
  | fail e =>
    cases hr
    exact fun path origins hlen => ⟨[], origins, .fail, hlen⟩
  | look next ih =>
    intro path origins hlen
    obtain ⟨moments, origins', hcourse, hlen'⟩ := ih _ hr path origins hlen
    exact ⟨moments, origins', .look hcourse, hlen'⟩
  | perform op next ih =>
    intro path origins hlen
    unfold Action.run at hr
    split at hr
    · cases hr
    · next first x hx =>
      obtain ⟨moments, origins', hcourse, hlen'⟩ := h hx path origins hlen
      obtain ⟨moments', origins'', hcourse', hlen''⟩ := ih first hr path origins' hlen'
      exact ⟨_, origins'', .perform hcourse hcourse', hlen''⟩

theorem traced_line {text : String} (hr : c.dispatch perform text s = some (outcome, t)) :
    c.Traced (.op (.dispatch text)) s outcome t := by
  intro path origins hlen
  unfold dispatch at hr
  dsimp only at hr
  split at hr
  · next hblank =>
    cases hr
    exact ⟨_, origins, .blank hblank, hlen⟩
  · next hline =>
    split at hr
    · next statements hs =>
      unfold expandAlias at hr
      dsimp only at hr
      split at hr
      · next hd =>
        cases hr
        exact ⟨_, origins, .refused rfl hline hs hd, hlen⟩
      · next hd =>
        split at hr
        · cases hr
        · next first x hx =>
          cases hr
          obtain ⟨moments, origins', hcourse, hlen'⟩ :=
            traced_statements h hx (path ++ [Text.trim text]) origins hlen
          exact ⟨_, origins', .expanded rfl hline hs hd hcourse, hlen'⟩
    · next hs =>
      split at hr
      · next hresolve =>
        cases hr
        exact ⟨_, origins, .unresolved rfl hline hs hresolve, hlen⟩
      · next command hresolve =>
        cases hr
        exact ⟨_, origins, .help rfl hline hs hresolve, hlen⟩
      · next command binding values hresolve =>
        obtain ⟨moments, origins', hcourse, hlen'⟩ := traced_action h hr path origins hlen
        exact ⟨_, origins', .invoked rfl hline hs hresolve hcourse, hlen'⟩

end Lines

/-- What is due is settled, or the first sequence in the queue runs with the others set aside, and
then what is due. -/
theorem resume_cases {run : List String → Session τ → Result τ Outcome} {most : Nat}
    (h : resume run most s = some u) :
    ((s.sequencer.parked = [] ∨ s.sequencer.isWaiting = true) ∧ u = s) ∨
      ∃ fewer q behind first x, fewer < most ∧ s.sequencer.isWaiting = false ∧
        s.sequencer.parked = q :: behind ∧ run q.statements (s.resuming q) = some (first, x) ∧
        resume run fewer ((x.reportFailure first).putBack behind s.depth) = some u := by
  cases most with
  | zero =>
    unfold resume at h
    split at h
    · next hp =>
      cases h
      exact Or.inl ⟨Sequencer.of_popReady?_none (Option.isNone_iff_eq_none.mp hp), rfl⟩
    · cases h
  | succ fewer =>
    unfold resume at h
    split at h
    · next hp =>
      cases h
      exact Or.inl ⟨Sequencer.of_popReady?_none hp, rfl⟩
    · next q sequencer hp =>
      obtain ⟨hw, behind, hparked, rfl⟩ := Sequencer.of_popReady?_some hp
      dsimp only [Sequencer.takeParked] at h
      split at h
      · cases h
      · next first x hx =>
        exact Or.inr ⟨fewer, q, behind, first, x, Nat.lt_succ_self _, hw, hparked, hx, h⟩

omit [Seconds τ] in
/-- The queue with sequences put back has a path for each of its sequences, if those that were
parked meanwhile have. -/
theorem length_putBack {x : Session τ} {origins' : List Path}
    (hlen' : origins'.length = x.sequencer.parked.length) (first : Outcome)
    {origins : List Path} {behind : List ParkedSequence} (hlen : origins.length = behind.length)
    (depth : Nat) : (origins' ++ origins).length =
      ((x.reportFailure first).putBack behind depth).sequencer.parked.length := by
  show _ = ((x.reportFailure first).sequencer.parked ++ behind).length
  rw [parked_reportFailure, List.length_append, List.length_append, hlen', hlen]

theorem traced_due {run : List String → Session τ → Result τ Outcome}
    (h : ∀ {statements s outcome t}, run statements s = some (outcome, t) →
      c.Traced (.statements statements) s outcome t)
    {most : Nat} (hr : resume run most s = some u) : c.Traced .due s (.ok ()) u := by
  induction most using Nat.strongRecOn generalizing s with
  | ind most ih =>
    rcases resume_cases hr with
      ⟨hs, rfl⟩ | ⟨fewer, q, behind, first, x, hlt, hw, hp, hx, hlater⟩
    · exact fun path origins hlen => ⟨[], origins, .settled hs, hlen⟩
    · intro path origins hlen
      rw [hp] at hlen
      obtain ⟨origin, origins, rfl⟩ := List.exists_cons_of_length_eq_add_one hlen
      obtain ⟨moments, origins', hcourse, hlen'⟩ := h hx origin [] rfl
      obtain ⟨moments', origins'', hcourse', hlen''⟩ :=
        ih fewer hlt hlater path _ (length_putBack hlen' first (Nat.succ.inj hlen) s.depth)
      exact ⟨_, origins'', .resumed hw hp hcourse hcourse', hlen''⟩

/-- Every operation that ends has a course. -/
theorem traced_perform {fuel : Nat} {op : Op τ} (h : c.perform fuel op s = some (outcome, t)) :
    c.Traced (.op op) s outcome t := by
  induction fuel generalizing op s outcome t with
  | zero => cases h
  | succ fuel ih =>
    intro path origins hlen
    cases op with
    | primitive p => exact traced_primitive (Option.some.inj h) path origins hlen
    | dispatch text => exact traced_line ih h path origins hlen
    | execute text =>
      unfold perform execute at h
      dsimp only at h
      split at h
      · cases h
      · next first x hx =>
        cases h
        obtain ⟨moments, origins', hcourse, hlen'⟩ := ih hx path origins hlen
        exact ⟨_, origins', .execute hcourse, by rw [parked_reportFailure, hlen']⟩
    | runSequence text =>
      obtain ⟨moments, origins', hcourse, hlen'⟩ := traced_statements ih h path origins hlen
      exact ⟨_, origins', .runSequence hcourse, hlen'⟩
    | tick e =>
      obtain ⟨x, hx, heq⟩ := Option.map_eq_some_iff.mp h
      cases heq
      obtain ⟨moments, origins', hcourse, hlen'⟩ :=
        traced_due (fun hr => traced_statements ih hr) hx path origins hlen
      exact ⟨_, origins', .tick hcourse, hlen'⟩
    | fire hook =>
      unfold perform fire at h
      dsimp only at h
      split at h
      · next hunbound =>
        cases h
        exact ⟨_, origins, .unbound hunbound, hlen⟩
      · next command hcommand =>
        split at h
        · cases h
        · next first x hx =>
          cases h
          obtain ⟨moments, origins', hcourse, hlen'⟩ := traced_statements ih hx path origins hlen
          exact ⟨_, origins', .fired hcommand hcourse, by rw [parked_reportFailure, hlen']⟩
    | submit =>
      unfold perform submit execute at h
      dsimp only at h
      split at h
      · next hblank =>
        cases h
        exact ⟨_, origins, .ignored hblank, hlen⟩
      · next hline =>
        split at h
        · cases h
        · next first x hx =>
          cases h
          obtain ⟨moments, origins', hcourse, hlen'⟩ := ih hx path origins hlen
          exact ⟨_, origins', .submitted (by simpa using hline) hcourse,
            by rw [parked_reportFailure, hlen']⟩

/-- Every operation that ends has a course. -/
theorem Returns.exists_course {op : Op τ} (h : c.Returns op s outcome t) (path : Path)
    {origins : List Path} (hlen : origins.length = s.sequencer.parked.length) :
    ∃ moments origins', c.Course (.op op) path s origins moments outcome t origins' := by
  obtain ⟨fuel, hf⟩ := h
  obtain ⟨moments, origins', hcourse, -⟩ := traced_perform hf path origins hlen
  exact ⟨moments, origins', hcourse⟩

/-- An operation starts with itself. -/
theorem Course.starts {op : Op τ} {path : Path} {origins origins' : List Path}
    {moments : List (Moment τ)}
    (h : c.Course (.op op) path s origins moments outcome t origins') :
    ∃ rest, moments = ⟨.starts op, path, s⟩ :: rest := by
  cases h <;> exact ⟨_, rfl⟩

/-! ### Operations inside a course -/

/-- If an operation starts at this moment, it has a course of its own, which is part of the run. -/
def StartsIn (c : Console τ) (whole : List (Moment τ)) (m : Moment τ) : Prop :=
  ∀ op, m.occasion = .starts op → ∃ origins inner outcome t origins',
    c.Course (.op op) m.path m.session origins inner outcome t origins' ∧ inner <:+: whole

section StartsIn

variable {op : Op τ} {path : Path} {origins origins' : List Path}
  {moments : List (Moment τ)}

theorem StartsIn.mono {whole longer : List (Moment τ)} {m : Moment τ}
    (h : c.StartsIn whole m) (hlonger : whole <:+: longer) : c.StartsIn longer m := by
  intro op ho
  obtain ⟨origins, inner, outcome, t, origins', hcourse, hinner⟩ := h op ho
  exact ⟨origins, inner, outcome, t, origins', hcourse, hinner.trans hlonger⟩

/-- An operation is the first to start in its own course. -/
theorem Course.startsIn_cons
    (h : c.Course (.op op) path s origins (⟨.starts op, path, s⟩ :: moments) outcome t origins')
    (hm : ∀ m ∈ moments, c.StartsIn moments m) :
    ∀ m ∈ (⟨.starts op, path, s⟩ : Moment τ) :: moments,
      c.StartsIn (⟨.starts op, path, s⟩ :: moments) m := by
  refine List.forall_mem_cons.mpr ⟨?_, fun m hmem => (hm m hmem).mono ?_⟩
  · rintro _ ⟨⟩
    exact ⟨_, _, _, _, _, h, List.infix_rfl⟩
  · exact (List.suffix_cons _ _).isInfix

/-- The same for an operation that parks nothing. -/
theorem Course.startsIn_alone (h : ∀ origins,
      c.Course (.op op) path s origins (⟨.starts op, path, s⟩ :: moments) outcome t origins)
    (hm : ∀ m ∈ moments, c.StartsIn moments m) :
    ∀ m ∈ (⟨.starts op, path, s⟩ : Moment τ) :: moments,
      c.StartsIn (⟨.starts op, path, s⟩ :: moments) m :=
  (h []).startsIn_cons hm

theorem startsIn_append {later : List (Moment τ)} (h : ∀ m ∈ moments, c.StartsIn moments m)
    (h' : ∀ m ∈ later, c.StartsIn later m) :
    ∀ m ∈ moments ++ later, c.StartsIn (moments ++ later) m :=
  List.forall_mem_append.mpr
    ⟨fun m hm => (h m hm).mono (List.prefix_append _ _).isInfix,
      fun m hm => (h' m hm).mono (List.suffix_append _ _).isInfix⟩

/-- **Parts**: every operation that starts in a run has a course of its own in it. -/
theorem Course.startsIn {job : Job τ}
    (h : c.Course job path s origins moments outcome t origins') :
    ∀ m ∈ moments, c.StartsIn moments m := by
  have nothing : ∀ m ∈ ([] : List (Moment τ)), c.StartsIn [] m := List.forall_mem_nil _
  induction h with
  | primitive hp => exact startsIn_alone (fun _ => .primitive hp) nothing
  | blank hline => exact startsIn_alone (fun _ => .blank hline) nothing
  | refused hline hne hs hd =>
    exact startsIn_alone (fun _ => .refused hline hne hs hd) (List.forall_mem_singleton.mpr nofun)
  | expanded hline hne hs hd hcourse ih =>
    refine startsIn_cons (.expanded hline hne hs hd hcourse) ?_
    exact List.forall_mem_cons.mpr
      ⟨nofun, fun m hm => (ih m hm).mono (List.suffix_cons _ _).isInfix⟩
  | unresolved hline hne hs hr =>
    exact startsIn_alone (fun _ => .unresolved hline hne hs hr) nothing
  | help hline hne hs hr => exact startsIn_alone (fun _ => .help hline hne hs hr) nothing
  | invoked hline hne hs hr hcourse ih => exact startsIn_cons (.invoked hline hne hs hr hcourse) ih
  | execute hcourse ih => exact startsIn_cons (.execute hcourse) ih
  | runSequence hcourse ih => exact startsIn_cons (.runSequence hcourse) ih
  | tick hcourse ih => exact startsIn_cons (.tick hcourse) ih
  | unbound hh => exact startsIn_alone (fun _ => .unbound hh) nothing
  | fired hh hcourse ih => exact startsIn_cons (.fired hh hcourse) ih
  | ignored hline => exact startsIn_alone (fun _ => .ignored hline) nothing
  | submitted hline hcourse ih => exact startsIn_cons (.submitted hline hcourse) ih
  | nil | park | done | fail | settled => exact nothing
  | goesOn _ _ _ _ ih ih' => exact startsIn_append ih ih'
  | abort _ _ _ ih => exact ih
  | perform _ _ ih ih' => exact startsIn_append ih ih'
  | look _ ih => exact ih
  | resumed _ _ _ _ ih ih' => exact startsIn_append ih ih'

end StartsIn

/-! ### The depth -/

/-- Whatever is run leaves the depth as it was, whether it succeeds or fails. -/
theorem Course.depth_eq {job : Job τ} {path : Path} {origins origins' : List Path}
    {moments : List (Moment τ)}
    (h : c.Course job path s origins moments outcome t origins') : t.depth = s.depth := by
  induction h with
  | @primitive p _ s _ _ _ hp => rw [← (p.uniform_apply c.config).depth_eq s, hp]
  | @expanded _ _ _ _ s t _ _ _ _ _ _ _ _ _ ih =>
    -- the statements end one level deeper, where they began
    have hdeeper : t.depth = s.depth + 1 := ih
    show t.depth - 1 = s.depth
    rw [hdeeper, Nat.add_sub_cancel]
  | blank | refused | unresolved | help | unbound | ignored | nil | park | done | fail | settled =>
    rfl
  | invoked _ _ _ _ _ ih => exact ih
  | execute _ ih => rw [depth_reportFailure, ih]
  | runSequence _ ih => exact ih
  | tick _ ih => exact ih
  | fired _ _ ih => rw [depth_reportFailure, ih]; rfl
  | submitted _ _ ih => rw [depth_reportFailure, ih]; rfl
  | goesOn _ _ _ _ ih ih' => rw [ih', depth_reportFailure, ih]
  | abort _ _ _ ih => exact ih
  | perform _ _ ih ih' => rw [ih', ih]
  | look _ ih => exact ih
  | resumed _ _ _ _ _ ih' => exact ih'

/-! ### What is parked -/

/-- Whatever is run parks only sequences that have statements left. -/
theorem Course.nonempty {job : Job τ} {path : Path} {origins origins' : List Path}
    {moments : List (Moment τ)}
    (h : c.Course job path s origins moments outcome t origins')
    (hs : ∀ q ∈ s.sequencer.parked, q.statements ≠ []) :
    ∀ q ∈ t.sequencer.parked, q.statements ≠ [] := by
  induction h with
  | @primitive p _ s _ _ _ hp =>
    have hparked := (p.uniform_apply c.config).parked_eq s
    rw [hp] at hparked
    rwa [hparked]
  | blank | refused | unresolved | help | unbound | ignored | nil | done | fail | settled =>
    exact hs
  | expanded _ _ _ _ _ ih | invoked _ _ _ _ _ ih | runSequence _ ih | tick _ ih | abort _ _ _ ih
  | look _ ih => exact ih hs
  | execute _ ih | fired _ _ ih | submitted _ _ ih =>
    rw [parked_reportFailure]
    exact ih hs
  | park =>
    exact List.forall_mem_append.mpr ⟨hs, List.forall_mem_singleton.mpr (List.cons_ne_nil _ _)⟩
  | goesOn _ _ _ _ ih ih' =>
    refine ih' ?_
    rw [parked_reportFailure]
    exact ih hs
  | perform _ _ ih ih' => exact ih' (ih hs)
  | resumed _ hp _ _ ih ih' =>
    rw [hp] at hs
    refine ih' (List.forall_mem_append.mpr ⟨?_, (List.forall_mem_cons.mp hs).2⟩)
    rw [parked_reportFailure]
    exact ih (List.forall_mem_nil _)

/-! ### Operations and statements -/

omit [Seconds τ] in
theorem exists_origins (s : Session τ) :
    ∃ origins : List Path, origins.length = s.sequencer.parked.length :=
  ⟨List.replicate _ [], List.length_replicate⟩

/-- Every operation that ends has a course that no expansion leads to. -/
theorem Returns.exists_course_nil {op : Op τ} (h : c.Returns op s outcome t) :
    ∃ origins moments origins', c.Course (.op op) [] s origins moments outcome t origins' := by
  obtain ⟨origins, hlen⟩ := exists_origins s
  exact ⟨origins, h.exists_course [] hlen⟩

/-- Every operation leaves the depth as it was, whether it succeeds or fails. -/
theorem Returns.depth_eq {op : Op τ} (h : c.Returns op s outcome t) : t.depth = s.depth := by
  obtain ⟨origins, moments, origins', hcourse⟩ := h.exists_course_nil
  exact hcourse.depth_eq

/-- So do statements in turn. -/
theorem Runs.depth_eq {statements : List String} (h : c.Runs statements s outcome t) :
    t.depth = s.depth := by
  obtain ⟨fuel, hf⟩ := h
  obtain ⟨origins, hlen⟩ := exists_origins s
  obtain ⟨moments, origins', hcourse, -⟩ := traced_statements traced_perform hf [] origins hlen
  exact hcourse.depth_eq

/-- Every operation parks only sequences that have statements left. -/
theorem Returns.nonempty {op : Op τ} (h : c.Returns op s outcome t)
    (hs : ∀ q ∈ s.sequencer.parked, q.statements ≠ []) :
    ∀ q ∈ t.sequencer.parked, q.statements ≠ [] := by
  obtain ⟨origins, moments, origins', hcourse⟩ := h.exists_course_nil
  exact hcourse.nonempty hs

end Console

end CommandConsole

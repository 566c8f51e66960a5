import CommandConsole.Proofs.Builtins

/-!
# CommandConsole.Proofs.Worklist — a flat list of work

A machine without recursion. Its work is a list of statements, each with the number of alias
expansions it comes from. It takes the first one: an alias is replaced by its statements, one level
deeper; `exec` is replaced by its statements, on the same level; every other statement runs, and its
error is reported. It stops when nothing is left or sequences have to wait, and at an alias that
nests too deep.

* `Console.request`, `Console.step`: what a line asks for, and what comes of an entry.
* `Console.IsBuiltin.uniform_step`: a step is the same in all surroundings.
* `Console.step_cases`: everything that a step can do.
* `Console.of_step_tooDeep`, `Console.depth_le_of_step`: the levels of entries.
-/

namespace CommandConsole

variable {τ : Type}

/-- A statement to run, and how many alias expansions it comes from. -/
structure Entry where
  statement : String
  depth : Nat
deriving DecidableEq, Repr

/-- The statements of a text or an alias as entries. -/
def entries (statements : List String) (depth : Nat) : List Entry :=
  statements.map fun statement => ⟨statement, depth⟩

/-- The statements that a sequence still has to run, as entries. -/
def ParkedSequence.entries (q : ParkedSequence) : List Entry :=
  CommandConsole.entries q.statements q.depth

/-- A queue as a flat list of work. -/
def worklist (queue : List ParkedSequence) : List Entry := queue.flatMap ParkedSequence.entries

theorem worklist_append (q r : List ParkedSequence) :
    worklist (q ++ r) = worklist q ++ worklist r := List.flatMap_append

theorem worklist_singleton (q : ParkedSequence) : worklist [q] = q.entries := by simp [worklist]

theorem worklist_cons (q : ParkedSequence) (r : List ParkedSequence) :
    worklist (q :: r) = q.entries ++ worklist r := List.flatMap_cons

/-- What a line asks for. -/
inductive Request where
  /-- Nothing further; the line has ended. -/
  | ends (outcome : Outcome)
  /-- To run statements on the same level. -/
  | sequence (statements : List String)
  /-- To run the statements of an alias, one level deeper. -/
  | expansion (name : String) (statements : List String)

/-- What comes of an entry. -/
inductive Progress where
  /-- Entries take its place. -/
  | onto (front : List Entry)
  /-- It is an alias that nests too deep. -/
  | tooDeep (name : String)

variable [Seconds τ]

/-- What an action asks for once it has had its effect. -/
def Action.request (c : Console τ) (a : Action τ Unit) (s : Session τ) : Request × Session τ :=
  match a with
  | perform (.runSequence text) _ => (.sequence (Text.statements text), s)
  | a => (.ends (a.effect c s).1, (a.effect c s).2)

theorem Action.Direct.request_eq {a : Action τ Unit} (ha : a.Direct) (c : Console τ)
    (s : Session τ) : a.request c s = (.ends (a.effect c s).1, (a.effect c s).2) := by
  cases a with
  | perform op next =>
    cases op with
    | runSequence text => exact ha.elim
    | _ => rfl
  | _ => rfl

theorem Action.Direct.uniform_request {a : Action τ Unit} (ha : a.Direct) (c : Console τ) :
    Uniform (a.request c) := by
  intro s f
  rw [ha.request_eq, ha.request_eq, ha.uniform_effect c s f]

namespace Console

variable (c : Console τ)

/-- What a line asks for once it has had its effect. -/
def request (line : String) (s : Session τ) : Request × Session τ :=
  let line := Text.trim line
  if line = "" then (.ends (.ok ()), s)
  else match s.aliases.expand line with
    | some statements => (.expansion line statements, s)
    | none =>
      match c.registry.resolve line with
      | none => (.ends (.error .dispatchRejected), s)
      | some (.help command) => (.ends (.ok ()), s.info command.helpText)
      | some (.invoke command binding values) =>
        let shown := binding.signature.display
        (binding.handler values).request c
          (s.record (.debug s!"Dispatching '{line}' to {command.name} [{shown}]"))

/-- The log line about an expansion. -/
def expansionNote (name : String) (count depth : Nat) : LogLine :=
  .debug s!"Expanding alias '{name}' into {count} statements (depth {depth})"

/-- Takes an entry: what comes of it, and the session after it. -/
def step (e : Entry) (s : Session τ) : Progress × Session τ :=
  match c.request e.statement s with
  | (.ends outcome, t) => (.onto [], t.reportFailure outcome)
  | (.sequence statements, t) => (.onto (entries statements e.depth), t)
  | (.expansion name statements, t) =>
    if c.config.maxAliasDepth ≤ e.depth then (.tooDeep name, t)
    else (.onto (entries statements (e.depth + 1)),
      t.record (expansionNote name statements.length e.depth))

/-! ### Requests -/

variable {c}

/-- A line that has ended does not end the chain it is part of. -/
theorem IsBuiltin.goesOn_request (hc : c.IsBuiltin) {line : String} {s t : Session τ}
    {outcome : Outcome} (h : c.request line s = (.ends outcome, t)) : GoesOn outcome := by
  unfold request at h
  dsimp only at h
  split at h
  · cases h
    exact goesOn_ok ()
  · split at h
    · cases h
    · split at h
      · cases h
        exact GoesOn.error rfl
      · cases h
        exact goesOn_ok ()
      · rename_i hr
        rcases hc.handler_cases hr with hd | ⟨text, hx, -⟩
        · rw [hd.request_eq] at h
          cases h
          exact hd.goesOn_effect c _
        · rw [hx] at h
          cases h

/-- What a line asks for does not depend on what surrounds it. -/
theorem IsBuiltin.uniform_request (hc : c.IsBuiltin) (line : String) :
    Uniform (c.request line) := by
  intro s f
  unfold request
  rw [show (s.within f).aliases = s.aliases from rfl]
  dsimp only
  split
  · rfl
  · cases s.aliases.expand (Text.trim line) with
    | some statements => rfl
    | none =>
      cases hr : c.registry.resolve (Text.trim line) with
      | none => rfl
      | some resolution =>
        cases resolution with
        | help command => rfl
        | invoke command binding values =>
          rcases hc.handler_cases hr with hd | ⟨text, hx, -⟩
          · exact hd.uniform_request c (s.record _) f
          · dsimp only
            rw [hx]
            rfl

omit [Seconds τ] in
/-- The statements of a text that is shorter than a line are shorter as well. -/
theorem length_lt_of_mem_statements {line text statement : String}
    (ht : text.length < (Text.trim line).length) (hm : statement ∈ Text.statements text) :
    statement.length < line.length := by
  have short : statement.length ≤ text.length := Text.length_le_of_mem_statements hm
  have trimmed : (Text.trim line).length ≤ line.length := Text.length_trim_le line
  omega

/-- The statements of `exec` are shorter than its line. -/
theorem IsBuiltin.length_lt_of_sequence (hc : c.IsBuiltin) {line : String} {s t : Session τ}
    {statements : List String} (h : c.request line s = (.sequence statements, t)) :
    ∀ statement ∈ statements, statement.length < line.length := by
  unfold request at h
  dsimp only at h
  split at h
  · cases h
  · split at h
    · cases h
    · split at h
      · cases h
      · cases h
      · rename_i hr
        rcases hc.handler_cases hr with hd | ⟨text, hx, ht⟩
        · rw [hd.request_eq] at h
          cases h
        · rw [hx] at h
          cases h
          exact fun statement hm => length_lt_of_mem_statements ht hm

/-- An expansion is that of an alias, and nothing else happens. -/
theorem request_expansion {line name : String} {statements : List String} {s t : Session τ}
    (h : c.request line s = (.expansion name statements, t)) :
    name = Text.trim line ∧ s.aliases.expand name = some statements ∧ t = s := by
  unfold request at h
  dsimp only at h
  split at h
  · cases h
  · split at h
    · rename_i ha
      cases h
      exact ⟨rfl, ha, rfl⟩
    · split at h
      · cases h
      · cases h
      · unfold Action.request at h
        split at h <;> cases h

/-! ### Steps -/

section Steps

variable {e : Entry} {s t : Session τ} {front : List Entry} {name : String} {progress : Progress}

theorem step_ends {outcome : Outcome} (h : c.request e.statement s = (.ends outcome, t)) :
    c.step e s = (.onto [], t.reportFailure outcome) := by
  unfold step
  rw [h]

theorem step_sequence {statements : List String}
    (h : c.request e.statement s = (.sequence statements, t)) :
    c.step e s = (.onto (entries statements e.depth), t) := by
  unfold step
  rw [h]

theorem step_refused {statements : List String}
    (h : c.request e.statement s = (.expansion name statements, t))
    (hd : c.config.maxAliasDepth ≤ e.depth) : c.step e s = (.tooDeep name, s) := by
  obtain ⟨-, -, rfl⟩ := request_expansion h
  unfold step
  rw [h]
  exact if_pos hd

theorem step_expansion {statements : List String}
    (h : c.request e.statement s = (.expansion name statements, t))
    (hd : ¬ c.config.maxAliasDepth ≤ e.depth) :
    c.step e s = (.onto (entries statements (e.depth + 1)),
      s.record (expansionNote name statements.length e.depth)) := by
  obtain ⟨-, -, rfl⟩ := request_expansion h
  unfold step
  rw [h]
  exact if_neg hd

/-- Everything that a step can do: a line ends, `exec` or an alias opens statements, or an alias at
the limit is refused. -/
theorem step_cases (h : c.step e s = (progress, t)) :
    (∃ outcome t', c.request e.statement s = (.ends outcome, t') ∧ progress = .onto [] ∧
      t = t'.reportFailure outcome) ∨
    (∃ statements, c.request e.statement s = (.sequence statements, t) ∧
      progress = .onto (entries statements e.depth)) ∨
    ∃ name statements, c.request e.statement s = (.expansion name statements, s) ∧
      (c.config.maxAliasDepth ≤ e.depth ∧ progress = .tooDeep name ∧ t = s ∨
        ¬ c.config.maxAliasDepth ≤ e.depth ∧ progress = .onto (entries statements (e.depth + 1)) ∧
          t = s.record (expansionNote name statements.length e.depth)) := by
  cases hr : c.request e.statement s with
  | mk request t' =>
    cases request with
    | ends outcome =>
      rw [step_ends hr] at h
      cases h
      exact Or.inl ⟨outcome, t', rfl, rfl, rfl⟩
    | sequence statements =>
      rw [step_sequence hr] at h
      cases h
      exact Or.inr (Or.inl ⟨statements, rfl, rfl⟩)
    | expansion name statements =>
      obtain ⟨-, -, rfl⟩ := request_expansion hr
      refine Or.inr (Or.inr ⟨name, statements, rfl, ?_⟩)
      by_cases hd : c.config.maxAliasDepth ≤ e.depth
      · rw [step_refused hr hd] at h
        cases h
        exact Or.inl ⟨hd, rfl, rfl⟩
      · rw [step_expansion hr hd] at h
        cases h
        exact Or.inr ⟨hd, rfl, rfl⟩

/-- A step is refused at an alias at the limit, and then changes nothing. -/
theorem of_step_tooDeep (h : c.step e s = (.tooDeep name, t)) :
    name = Text.trim e.statement ∧ (s.aliases.expand name).isSome ∧
      c.config.maxAliasDepth ≤ e.depth ∧ t = s := by
  rcases step_cases h with ⟨_, _, -, hp, -⟩ | ⟨_, -, hp⟩ | ⟨_, _, hr, ⟨hd, hp, ht⟩ | ⟨-, hp, -⟩⟩
  · cases hp
  · cases hp
  · cases hp
    obtain ⟨hname, halias, -⟩ := request_expansion hr
    exact ⟨hname, Option.isSome_of_eq_some halias, hd, ht⟩
  · cases hp

/-- No entry comes from more expansions than the limit. -/
theorem depth_le_of_step (h : c.step e s = (.onto front, t))
    (he : e.depth ≤ c.config.maxAliasDepth) : ∀ e' ∈ front, e'.depth ≤ c.config.maxAliasDepth := by
  have level {statements : List String} {depth : Nat} (hd : depth ≤ c.config.maxAliasDepth) :
      ∀ e' ∈ entries statements depth, e'.depth ≤ c.config.maxAliasDepth := by
    intro e' he'
    obtain ⟨statement, -, rfl⟩ := List.mem_map.mp he'
    exact hd
  rcases step_cases h with ⟨_, _, -, hp, -⟩ | ⟨_, -, hp⟩ | ⟨_, _, -, ⟨-, hp, -⟩ | ⟨hd, hp, -⟩⟩
  · cases hp
    nofun
  · cases hp
    exact level he
  · cases hp
  · cases hp
    exact level (by omega)

/-- What every request to delay keeps of the sequencer, every step keeps. -/
theorem step_keeps {Q : Sequencer τ → Prop} (hq : ∀ q q' : Sequencer τ, q.Delays q' → Q q → Q q')
    (h : c.step e s = (progress, t)) (hs : Q s.sequencer) : Q t.sequencer := by
  have asked : Q (c.request e.statement s).2.sequencer := by
    unfold request
    dsimp only
    split
    · exact hs
    · split
      · exact hs
      · split
        · exact hs
        · exact hs
        · unfold Action.request
          split
          · exact hs
          · exact Action.effect_keeps (P := fun s => Q s.sequencer)
              (fun p s => hq _ _ (p.delays_apply c.config s)) _ hs
  rcases step_cases h with ⟨outcome, _, hr, -, rfl⟩ | ⟨_, hr, -⟩ | ⟨_, _, -, h | h⟩
  · rw [hr] at asked
    cases outcome <;> exact asked
  · rwa [hr] at asked
  · obtain ⟨-, -, rfl⟩ := h
    exact hs
  · obtain ⟨-, -, rfl⟩ := h
    exact hs

/-- **Surroundings**: what comes of an entry does not depend on what surrounds it. -/
theorem IsBuiltin.uniform_step (hc : c.IsBuiltin) (e : Entry) : Uniform (c.step e) := by
  intro s f
  have asked := hc.uniform_request e.statement s f
  cases hr : c.request e.statement s with
  | mk request t =>
    rw [hr] at asked
    unfold step
    rw [asked, hr]
    cases request with
    | ends outcome => exact Prod.ext rfl (t.reportFailure_within f outcome)
    | sequence statements => rfl
    | expansion name statements =>
      dsimp only
      split <;> rfl

end Steps

end Console

end CommandConsole

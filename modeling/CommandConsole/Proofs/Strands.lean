import CommandConsole.Proofs.Numerals
import CommandConsole.Proofs.Termination

/-!
# CommandConsole.Proofs.Strands — what comes right behind what

With the built-in commands, each moment of a run finds the countdown as the moment before it leaves
it: only requests to delay and ticks change it, and nothing happens to it between two moments. A
line starts right behind the operation that enters it, or as a statement, while nothing has to wait.
A line that asks for a delay is followed by the request.

* `Session.clock`, `Moment.clock`: the countdown, and what a moment makes of it.
* `Moment.Brings`, `Console.Behind`: what has to come right behind a moment, and what can.
* `Console.Strand`: the moments from one countdown to another.
* `Console.Course.strand`: the moments of a run, from its start to its end.
-/

namespace CommandConsole

variable {τ : Type}

/-- The countdown and its ceiling, whatever is parked. -/
def Session.clock (s : Session τ) : Sequencer τ := { s.sequencer with parked := [] }

variable [Seconds τ]

/-- What a moment makes of the countdown. -/
def Moment.clock (m : Moment τ) : Sequencer τ :=
  match m.occasion with
  | .starts (.primitive (.requestDelay amount)) => (m.session.requestDelay amount).clock
  | .starts (.tick e) => (m.session.advance e).clock
  | _ => m.session.clock

/-- A line starts that is no alias and asks for a delay of this amount. -/
def Moment.Asks (c : Console τ) (m : Moment τ) (amount : τ) : Prop :=
  ∃ line, m.occasion = .starts (.dispatch line) ∧ m.session.aliases.lookup line = none ∧
    c.AsksFor line amount

/-- An operation that has to start right behind a moment. -/
inductive Moment.Brings (c : Console τ) (m : Moment τ) : Op τ → Prop
  | line {line : String} : m.occasion = .starts (.execute line) → Brings c m (.dispatch line)
  | request {amount : τ} : m.Asks c amount → Brings c m (.primitive (.requestDelay amount))

/-- An operation leaves the countdown as its moment does. -/
theorem Primitive.clock_apply (p : Primitive τ) (c : Config τ) (path : Path) (s : Session τ) :
    (p.apply c s).2.clock = Moment.clock ⟨.starts (.primitive p), path, s⟩ := by
  by_cases hp : ∃ amount, p = .requestDelay amount
  · obtain ⟨amount, rfl⟩ := hp
    rfl
  · have hkept : (p.apply c s).2.clock = s.clock := by
      rw [p.apply_eq_under c fun amount h => hp ⟨amount, h⟩]
      rfl
    rw [hkept]
    unfold Moment.clock
    split
    · next amount heq =>
      cases heq
      exact absurd ⟨amount, rfl⟩ hp
    · next heq => cases heq
    · rfl

/-- The job is one that a line of a built-in command can come to, or an operation of a host other
than entering the composed line. -/
def Job.Ordinary : Job τ → Prop
  | .op .submit => False
  | .action a => a.Direct ∨ (∃ text, a = .call (.runSequence text)) ∨ ∃ e, a = .fail e
  | _ => True

namespace Builtins

/-- No other command has the declared signature of `delay`. -/
theorem eq_delay_of_mem {d : CommandDecl (Handler τ)} (hd : d ∈ all)
    (hg : delayGrammar ∈ d.outline.grammars) : d = delay := by
  simp only [all, List.mem_cons, List.not_mem_nil, or_false] at hd
  rcases hd with rfl | rfl | rfl | rfl | rfl | rfl | rfl | rfl | rfl | rfl
  case inr.inr.inr.inr.inr.inr.inr.inr.inl => rfl
  all_goals
    simp [CommandDecl.outline, help, print, clear, showPanel, hidePanel, aliases, events, fontSize,
      exec, signature, delayGrammar] at hg

/-- What the handler of the declared signature of `delay` does. -/
theorem handler_delay {d : CommandDecl (Handler τ)} (hd : d ∈ all)
    {sd : SignatureDecl (Handler τ)} (hs : sd ∈ d.signatures) (hg : sd.grammar = delayGrammar)
    {handler : Handler τ} (hh : sd.handler = some handler) {values : List String} {text : String}
    {amount : τ} (ht : values[0]? = some text) (hr : Seconds.read? text = some amount) :
    handler values = .doing (.requestDelay amount) := by
  obtain rfl := eq_delay_of_mem hd (hg ▸ List.mem_map_of_mem hs)
  obtain rfl := List.mem_singleton.mp hs
  have hvalue : (value values 0 : Action τ String) = .done text := by
    unfold value
    rw [ht]
    rfl
  have hparsed : (parsed Seconds.read? text : Action τ τ) = .done amount := by
    unfold parsed
    rw [hr]
    rfl
  rw [← Option.some.inj hh]
  show ((value values 0).bind fun text => (parsed Seconds.read? text).bind fun amount =>
    .doing (.requestDelay amount)) = _
  rw [hvalue]
  show (parsed Seconds.read? text).bind _ = _
  rw [hparsed]
  rfl

end Builtins

namespace Console

variable {c : Console τ} {s t u : Session τ} {path : Path} {origins origins' : List Path}
  {moments moments' : List (Moment τ)} {outcome : Outcome} {line : String} {amount : τ}

/-! ### Lines that ask for a delay -/

/-- A line that asks for a delay is resolved to the request. -/
theorem IsBuiltin.of_asksFor (hc : c.IsBuiltin) (h : c.AsksFor line amount) :
    Text.trim line ≠ "" ∧ ∃ command binding values,
      c.registry.resolve (Text.trim line) = some (.invoke command binding values) ∧
        binding.handler values = .doing (.requestDelay amount) := by
  obtain ⟨values, text, ⟨command, binding, hresolve, hgrammar⟩, ht, hr⟩ := h
  obtain ⟨hm, hb, hvalues⟩ := Registry.captures?_of_resolve hresolve
  obtain ⟨d, hd, sd, hs, hcompile, hh⟩ := Registry.exists_decl_of_mem hc hm hb
  have hsignature : binding.signature = _ :=
    Except.ok.inj (hgrammar.symm.trans Builtins.compile_delay)
  refine ⟨fun hblank => ?_, command, binding, values, hresolve, ?_⟩
  · have hnone : (Signature.ofTokens "delay <seconds:i>"
        [.word "delay", .value ⟨"seconds", .int⟩]).captures? "" = none := by
      decide +kernel
    rw [hsignature, hblank, hnone] at hvalues
    cases hvalues
  · -- the text of the declared signature is that of the compiled one
    obtain ⟨raw, hraw⟩ := Builtins.exists_written hd hs
    rw [hraw] at hcompile
    obtain ⟨_, -, -, hcompiled⟩ := Signature.exists_of_compile hcompile
    have heq : raw = "delay <seconds:i>" :=
      congrArg Signature.raw (hcompiled.symm.trans hsignature)
    exact Builtins.handler_delay hd hs (by rw [hraw, heq]; rfl) hh ht hr

/-- So is a line that starts and asks for a delay. -/
theorem IsBuiltin.of_asks (hc : c.IsBuiltin)
    (h : Moment.Asks c ⟨.starts (.dispatch line), path, s⟩ amount) :
    s.aliases.expand (Text.trim line) = none ∧ Text.trim line ≠ "" ∧ ∃ command binding values,
      c.registry.resolve (Text.trim line) = some (.invoke command binding values) ∧
        binding.handler values = .doing (.requestDelay amount) := by
  obtain ⟨line', hline, hkey, hasks⟩ := h
  obtain rfl : line = line' := Op.dispatch.inj (Occasion.starts.inj hline)
  exact ⟨AliasTable.expand_trim_eq_none hkey, hc.of_asksFor hasks⟩

/-- An operation that an action begins with comes first. -/
theorem Course.starts_doing {p : Primitive τ}
    (h : c.Course (.action (.doing p)) path s origins moments outcome t origins') :
    ∃ rest, moments = ⟨.starts (.primitive p), path, s⟩ :: rest := by
  cases h with
  | perform hfirst _ =>
    obtain ⟨rest, rfl⟩ := hfirst.starts
    exact ⟨_, rfl⟩

/-- Where something is due, its first statement does. -/
theorem Course.starts_due {task : ParkedSequence} {parked : List ParkedSequence}
    {statement : String} {statements : List String}
    (h : c.Course .due path s origins moments outcome t origins')
    (hw : s.sequencer.isWaiting = false) (hp : s.sequencer.parked = task :: parked)
    (htask : task.statements = statement :: statements) : ∃ origin rest,
      moments = ⟨.starts (.dispatch statement), origin, s.resuming task⟩ :: rest := by
  cases h with
  | settled hs =>
    rcases hs with hnil | hwaits
    · cases hnil.symm.trans hp
    · cases hwaits.symm.trans hw
  | resumed _ hp' hfirst _ =>
    obtain ⟨rfl, rfl⟩ := List.cons.inj (hp'.symm.trans hp)
    rw [htask] at hfirst
    cases hfirst with
    | park hwaits => cases hwaits.symm.trans hw
    | goesOn _ _ hstarts _ | abort _ _ hstarts =>
      obtain ⟨rest, rfl⟩ := hstarts.starts
      exact ⟨_, _, rfl⟩

/-! ### Strands -/

/-- No line starts first that has to wait. -/
def Ready (moments : List (Moment τ)) : Prop :=
  ∀ m ∈ moments.head?, ∀ line, m.occasion = .starts (.dispatch line) →
    m.session.sequencer.isWaiting = false

/-- What can come behind a moment: what it brings comes right behind it, and a line that it does not
bring does not have to wait. -/
structure Behind (c : Console τ) (m : Moment τ) (later : List (Moment τ)) : Prop where
  brings : ∀ op, m.Brings c op → ∃ m' ∈ later.head?, m'.occasion = .starts op
  ready : ∀ m' ∈ later.head?, ∀ line, m'.occasion = .starts (.dispatch line) →
    m.Brings c (.dispatch line) ∨ m'.session.sequencer.isWaiting = false

/-- The moments from one countdown to another, each right behind the one before. -/
inductive Strand (c : Console τ) : List (Moment τ) → Sequencer τ → Sequencer τ → Prop
  | nil (q : Sequencer τ) : Strand c [] q q
  | cons {m : Moment τ} {later : List (Moment τ)} {q : Sequencer τ} :
      c.Behind m later → Strand c later m.clock q → Strand c (m :: later) m.session.clock q

/-- Behind a moment that brings nothing there is only something that does not have to wait. -/
theorem Behind.of_ready {m : Moment τ} (hm : ∀ op, ¬ m.Brings c op) (h : Ready moments) :
    c.Behind m moments :=
  ⟨fun op hop => absurd hop (hm op), fun m' hm' line hline => Or.inr (h m' hm' line hline)⟩

theorem ready_nil : Ready ([] : List (Moment τ)) := by simp [Ready]

theorem Ready.append (h : Ready moments) (h' : Ready moments') : Ready (moments ++ moments') := by
  cases moments with
  | nil => exact h'
  | cons m later => exact h

/-- What can come behind a moment can be followed by what does not have to wait. -/
theorem Behind.append {m : Moment τ} (h : c.Behind m moments) (h' : Ready moments') :
    c.Behind m (moments ++ moments') := by
  cases moments with
  | nil =>
    refine .of_ready (fun op hop => ?_) h'
    obtain ⟨m', hm', -⟩ := h.brings op hop
    cases hm'
  | cons m' later => exact ⟨h.brings, h.ready⟩

/-- One strand behind another, if that is not a line that has to wait. -/
theorem Strand.append {q q' q'' : Sequencer τ} (h : c.Strand moments q q')
    (hready : Ready moments') (h' : c.Strand moments' q' q'') :
    c.Strand (moments ++ moments') q q'' := by
  induction h with
  | nil => exact h'
  | cons hbehind _ ih => exact .cons (hbehind.append hready) (ih h')

/-! ### Runs -/

/-- What an action begins with runs no command or runs statements, and is ordinary itself; so is
what it goes on with. -/
theorem Course.ordinary_of_perform {op : Op τ} {next : Outcome → Action τ Unit}
    (h : c.Course (.op op) path s origins moments outcome t origins')
    (hjob : (Job.action (.perform op next)).Ordinary) :
    (∀ line, op ≠ .dispatch line) ∧ (Job.op op).Ordinary ∧
      (Job.action (next outcome)).Ordinary := by
  rcases hjob with hd | ⟨text, hx⟩ | ⟨e, hx⟩
  · cases op with
    | primitive p => exact ⟨nofun, trivial, Or.inl (hd outcome h.goesOn_primitive)⟩
    | _ => exact hd.elim
  · cases hx
    refine ⟨nofun, trivial, ?_⟩
    cases outcome with
    | ok _ => exact Or.inl trivial
    | error e => exact Or.inr (Or.inr ⟨e, rfl⟩)
  · cases hx

omit [Seconds τ] in
theorem ordinary_of_look {next : View τ → Action τ Unit}
    (hjob : (Job.action (.look next)).Ordinary) (v : View τ) :
    (Job.action (next v)).Ordinary := by
  rcases hjob with hd | ⟨text, hx⟩ | ⟨e, hx⟩
  · exact Or.inl (hd.2 v)
  · cases hx
  · cases hx

/-- What a line of a built-in command comes to is ordinary. -/
theorem IsBuiltin.ordinary (hc : c.IsBuiltin) {command : Command (Handler τ)}
    {binding : Binding (Handler τ)} {values : List String}
    (h : c.registry.resolve line = some (.invoke command binding values)) :
    (Job.action (binding.handler values)).Ordinary := by
  rcases hc.handler_cases h with hd | ⟨text, hx, -⟩
  · exact Or.inl hd
  · exact Or.inr (Or.inl ⟨text, hx⟩)

/-- Statements, and what is due, start only while nothing has to wait. -/
theorem Course.ready {job : Job τ}
    (h : c.Course job path s origins moments outcome t origins') (hjob : job.Ordinary)
    (hop : ∀ op, job ≠ .op op) : Ready moments := by
  have starting {line : String} {path : Path} {s : Session τ} {rest : List (Moment τ)}
      (hw : s.sequencer.isWaiting = false) :
      Ready (⟨.starts (.dispatch line), path, s⟩ :: rest) := by
    rintro m ⟨⟩ line' -
    exact hw
  induction h with
  | nil | park | done | fail | settled => exact ready_nil
  | goesOn hw _ hfirst | abort hw _ hfirst =>
    obtain ⟨rest, rfl⟩ := hfirst.starts
    exact starting hw
  | perform hfirst _ _ _ =>
    obtain ⟨hnot, -, -⟩ := hfirst.ordinary_of_perform hjob
    obtain ⟨rest, rfl⟩ := hfirst.starts
    rintro m ⟨⟩ line hline
    exact absurd (Occasion.starts.inj hline) (hnot line)
  | look _ ih => exact ih (ordinary_of_look hjob _) nofun
  | resumed _ _ _ _ ih ih' => exact (ih trivial nofun).append (ih' trivial nofun)
  | _ => exact absurd rfl (hop _)

omit [Seconds τ] in
theorem clock_reportFailure (s : Session τ) (outcome : Outcome) :
    (s.reportFailure outcome).clock = s.clock := by
  cases outcome <;> rfl

/-- A moment that neither starts nor enters a line brings nothing. -/
theorem not_brings {m : Moment τ} (hm : ∀ line, m.occasion ≠ .starts (.dispatch line) ∧
    m.occasion ≠ .starts (.execute line)) (op : Op τ) : ¬ m.Brings c op := by
  rintro (hline | ⟨line, hline, -⟩)
  · exact (hm _).2 hline
  · exact (hm _).1 hline

/-- A line that starts brings nothing unless it is resolved to a handler. -/
theorem IsBuiltin.not_brings (hc : c.IsBuiltin) (hnot : s.aliases.expand (Text.trim line) = none →
    Text.trim line ≠ "" → ∀ command binding values,
      c.registry.resolve (Text.trim line) ≠ some (.invoke command binding values)) (op : Op τ) :
    ¬ Moment.Brings c ⟨.starts (.dispatch line), path, s⟩ op := by
  rintro (hline | hasks)
  · cases hline
  · obtain ⟨halias, hline, command, binding, values, hresolve, -⟩ := hc.of_asks hasks
    exact hnot halias hline command binding values hresolve

/-- **Runs**: with the built-in commands the moments of a run are right behind one another. -/
theorem Course.strand (hc : c.IsBuiltin) {job : Job τ}
    (h : c.Course job path s origins moments outcome t origins') (hjob : job.Ordinary) :
    c.Strand moments s.clock t.clock := by
  have single {m : Moment τ} (hm : ∀ op, ¬ m.Brings c op) : c.Strand [m] m.session.clock m.clock :=
    .cons (.of_ready hm ready_nil) (.nil _)
  induction h with
  | @primitive p path s _ t _ hp =>
    have hclock := p.clock_apply c.config path s
    rw [hp] at hclock
    exact hclock ▸ single (not_brings (by simp))
  | blank htrim => exact single (hc.not_brings fun _ hline => absurd htrim hline)
  | refused htrim _ hs _ =>
    subst htrim
    refine .cons (.of_ready (hc.not_brings fun hnone => ?_) ?_) (single (not_brings (by simp)))
    · cases hs.symm.trans hnone
    · rintro m ⟨⟩ line ⟨⟩
  | expanded htrim _ hs _ hcourse ih =>
    subst htrim
    have hexpands := hcourse.ready trivial nofun
    refine .cons (.of_ready (hc.not_brings fun hnone => ?_) ?_)
      (.cons (.of_ready (not_brings (by simp)) hexpands) (ih trivial))
    · cases hs.symm.trans hnone
    · rintro m ⟨⟩ line ⟨⟩
  | unresolved htrim _ _ hresolve | help htrim _ _ hresolve =>
    subst htrim
    refine single (hc.not_brings fun _ _ command binding values hinvoke => ?_)
    cases hresolve.symm.trans hinvoke
  | invoked htrim _ _ hresolve hcourse ih =>
    subst htrim
    have hordinary := hc.ordinary hresolve
    have hready := hcourse.ready hordinary nofun
    refine .cons ⟨?_, fun m' hm' line hline => Or.inr (hready m' hm' line hline)⟩ (ih hordinary)
    rintro _ (hline | hasks)
    · cases hline
    · -- the line is resolved to the request, with which the handler begins
      obtain ⟨-, -, _, _, _, hinvoke, hhandler⟩ := hc.of_asks hasks
      cases hresolve.symm.trans hinvoke
      rw [hhandler] at hcourse
      obtain ⟨rest, rfl⟩ := hcourse.starts_doing
      exact ⟨_, rfl, rfl⟩
  | execute hcourse ih =>
    rw [clock_reportFailure]
    obtain ⟨rest, rfl⟩ := hcourse.starts
    refine .cons ⟨?_, ?_⟩ (ih trivial)
    · rintro _ (⟨⟨⟩⟩ | ⟨_, ⟨⟩, -⟩)
      exact ⟨_, rfl, rfl⟩
    · rintro _ ⟨⟩ line ⟨⟩
      exact Or.inl (.line rfl)
  | runSequence hcourse ih | tick hcourse ih =>
    exact .cons (.of_ready (not_brings (by simp)) (hcourse.ready trivial nofun)) (ih trivial)
  | unbound => exact single (not_brings (by simp))
  | fired _ hcourse ih =>
    rw [clock_reportFailure]
    exact .cons (.of_ready (not_brings (by simp)) (hcourse.ready trivial nofun)) (ih trivial)
  | ignored | submitted => exact hjob.elim
  | nil | park | done | fail | settled => exact .nil _
  | goesOn _ _ _ hlater ih ih' =>
    have hbehind := ih' trivial
    rw [clock_reportFailure] at hbehind
    exact (ih trivial).append (hlater.ready trivial nofun) hbehind
  | abort _ _ _ ih => exact ih trivial
  | perform hfirst hlater ih ih' =>
    obtain ⟨-, hop, hnext⟩ := hfirst.ordinary_of_perform hjob
    exact (ih hop).append (hlater.ready hnext nofun) (ih' hnext)
  | look _ ih => exact ih (ordinary_of_look hjob _)
  | @resumed _ behind _ _ s t _ _ _ _ _ _ outcome _ _ _ hlater ih ih' =>
    have hclock : ((t.reportFailure outcome).putBack behind s.depth).clock = t.clock :=
      clock_reportFailure t outcome
    have hbehind := ih' trivial
    rw [hclock] at hbehind
    exact (ih trivial).append (hlater.ready trivial nofun) hbehind

end Console

end CommandConsole

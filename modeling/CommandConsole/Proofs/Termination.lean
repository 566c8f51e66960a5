import Mathlib.Data.Prod.Lex
import CommandConsole.Proofs.Course
import CommandConsole.Proofs.Reachable

/-!
# CommandConsole.Proofs.Termination — why every call ends

Expansions make lines longer, and `exec` stays on its level, so neither the level nor the length of
a line tells how far it can unfold; the two in this order do. What opens in a line has less left of
them than the line, and a tick resumes each sequence at most once, as one that parks anything leaves
the console waiting.

* `Console.budget`: how far a statement can still unfold.
* `Console.budget_lt_of_step`: what takes the place of an entry can unfold less far.
* `Console.Course.startsBelow`: so can every line that starts in a run of lines.
* `Console.calls_terminate`: every operation ends, and why.
-/

namespace CommandConsole

variable {τ : Type} [Seconds τ]

namespace Console

/-- How far an entry can still unfold: the expansions that are left to it, and then the length of
its statement. -/
def budget (c : Console τ) (e : Entry) : Nat ×ₗ Nat :=
  toLex (c.config.maxAliasDepth - e.depth, e.statement.length)

/-- Every line that starts can unfold less far than the bound. -/
def StartsBelow (c : Console τ) (bound : Nat ×ₗ Nat) (moments : List (Moment τ)) : Prop :=
  ∀ m ∈ moments, ∀ line, m.occasion = .starts (.dispatch line) →
    c.budget ⟨line, m.session.depth⟩ < bound

/-- All statements can unfold less far than the bound. -/
def StatementsBelow (c : Console τ) (bound : Nat ×ₗ Nat) (depth : Nat)
    (statements : List String) : Prop :=
  ∀ statement ∈ statements, c.budget ⟨statement, depth⟩ < bound

/-- The job is one that a line of a built-in command can come to, and all lines that it begins with
can unfold less far than the bound. -/
def JobBelow (c : Console τ) (bound : Nat ×ₗ Nat) (depth : Nat) : Job τ → Prop
  | .op (.primitive _) => True
  | .op (.dispatch line) => c.budget ⟨line, depth⟩ < bound
  | .op (.runSequence text) => c.StatementsBelow bound depth (Text.statements text)
  | .op _ => False
  | .statements list => c.StatementsBelow bound depth list
  | .action a => a.Direct ∨ ∃ text, a = Action.call (.runSequence text) ∧
    c.StatementsBelow bound depth (Text.statements text)
  | .due => False

variable {c : Console τ} {s t u : Session τ} {line statement text : String} {depth : Nat}
  {bound : Nat ×ₗ Nat} {moments moments' : List (Moment τ)} {path : Path}
  {origins origins' : List Path} {outcome : Outcome}

/-! ### Less to unfold -/

omit [Seconds τ] in
/-- One level deeper there is less to unfold, however long a statement is. -/
theorem budget_lt_of_deeper (hd : ¬ c.config.maxAliasDepth ≤ depth) (statement line : String) :
    c.budget ⟨statement, depth + 1⟩ < c.budget ⟨line, depth⟩ := by
  refine Prod.Lex.toLex_lt_toLex.mpr (Or.inl ?_)
  show c.config.maxAliasDepth - (depth + 1) < c.config.maxAliasDepth - depth
  omega

omit [Seconds τ] in
/-- On the same level there is less to unfold if a statement is shorter. -/
theorem budget_lt_of_length (h : statement.length < line.length) (depth : Nat) :
    c.budget ⟨statement, depth⟩ < c.budget ⟨line, depth⟩ :=
  Prod.Lex.toLex_lt_toLex.mpr (Or.inr ⟨rfl, h⟩)

/-- **Steps**: what takes the place of an entry can unfold less far. -/
theorem budget_lt_of_step (hc : c.IsBuiltin) {e : Entry} {front : List Entry}
    (h : c.step e s = (.onto front, t)) : ∀ e' ∈ front, c.budget e' < c.budget e := by
  rcases step_cases h with ⟨_, _, -, hp, -⟩ | ⟨statements, hr, hp⟩ |
    ⟨_, statements, -, ⟨-, hp, -⟩ | ⟨hd, hp, -⟩⟩
  · cases hp
    exact List.forall_mem_nil _
  · cases hp
    intro e' he'
    obtain ⟨statement, hm, rfl⟩ := List.mem_map.mp he'
    exact budget_lt_of_length (hc.length_lt_of_sequence hr statement hm) e.depth
  · cases hp
  · cases hp
    intro e' he'
    obtain ⟨statement, -, rfl⟩ := List.mem_map.mp he'
    exact budget_lt_of_deeper hd statement e.statement

omit [Seconds τ] in
/-- What an alias stands for can unfold less far than the alias. -/
theorem StatementsBelow.of_expansion (hd : ¬ c.config.maxAliasDepth ≤ depth) (line : String)
    (statements : List String) :
    c.StatementsBelow (c.budget ⟨line, depth⟩) (depth + 1) statements :=
  fun statement _ => budget_lt_of_deeper hd statement line

omit [Seconds τ] in
theorem StatementsBelow.trans {bound' : Nat ×ₗ Nat} {statements : List String}
    (h : c.StatementsBelow bound depth statements) (hlt : bound < bound') :
    c.StatementsBelow bound' depth statements :=
  fun statement hm => (h statement hm).trans hlt

/-- What a built-in handler runs can unfold less far than the line. -/
theorem IsBuiltin.actionBelow (hc : c.IsBuiltin) {command : Command (Handler τ)}
    {binding : Binding (Handler τ)} {values : List String}
    (h : c.registry.resolve (Text.trim line) = some (.invoke command binding values))
    (depth : Nat) :
    c.JobBelow (c.budget ⟨line, depth⟩) depth (.action (binding.handler values)) := by
  rcases hc.handler_cases h with hd | ⟨text, hx, ht⟩
  · exact Or.inl hd
  · exact Or.inr ⟨text, hx, fun statement hm =>
      budget_lt_of_length (length_lt_of_mem_statements ht hm) depth⟩

omit [Seconds τ] in
theorem JobBelow.trans {bound' : Nat ×ₗ Nat} {a : Action τ Unit}
    (h : c.JobBelow bound depth (.action a)) (hlt : bound < bound') :
    c.JobBelow bound' depth (.action a) := by
  rcases h with hd | ⟨text, hx, hs⟩
  · exact Or.inl hd
  · exact Or.inr ⟨text, hx, hs.trans hlt⟩

/-! ### Lines within lines -/

namespace StartsBelow

omit [Seconds τ] in
theorem nil (c : Console τ) (bound : Nat ×ₗ Nat) : c.StartsBelow bound [] := List.forall_mem_nil _

omit [Seconds τ] in
/-- A line starts, and then what it comes to. -/
theorem starts (hb : c.budget ⟨line, s.depth⟩ < bound) (h : c.StartsBelow bound moments) :
    c.StartsBelow bound (⟨.starts (.dispatch line), path, s⟩ :: moments) := by
  refine List.forall_mem_cons.mpr ⟨fun line' hline => ?_, h⟩
  cases hline
  exact hb

omit [Seconds τ] in
/-- Something else happens first. -/
theorem other {m : Moment τ} (hm : ∀ line, m.occasion ≠ .starts (.dispatch line))
    (h : c.StartsBelow bound moments) : c.StartsBelow bound (m :: moments) :=
  List.forall_mem_cons.mpr ⟨fun line hline => absurd hline (hm line), h⟩

omit [Seconds τ] in
theorem append (h : c.StartsBelow bound moments) (h' : c.StartsBelow bound moments') :
    c.StartsBelow bound (moments ++ moments') := List.forall_mem_append.mpr ⟨h, h'⟩

end StartsBelow

/-- An operation that runs no command does not end a chain of expansions. -/
theorem Course.goesOn_primitive {p : Primitive τ}
    (h : c.Course (.op (.primitive p)) path s origins moments outcome t origins') :
    GoesOn outcome := by
  cases h with
  | primitive hp =>
    have hgoes := p.goesOn_apply c.config s
    rwa [hp] at hgoes

/-- **Lines within lines**: all lines that start in a run can unfold less far than a bound, if those
can that it begins with. -/
theorem Course.startsBelow (hc : c.IsBuiltin) {job : Job τ}
    (h : c.Course job path s origins moments outcome t origins')
    (hb : c.JobBelow bound s.depth job) : c.StartsBelow bound moments := by
  induction h with
  | primitive => exact (StartsBelow.nil c bound).other (by rintro _ ⟨⟩)
  | blank | unresolved | help => exact (StartsBelow.nil c bound).starts hb
  | refused => exact ((StartsBelow.nil c bound).other (by rintro _ ⟨⟩)).starts hb
  | @expanded text _ statements _ _ _ _ _ _ _ _ _ _ hd _ ih =>
    have hbelow := (StatementsBelow.of_expansion hd text statements).trans hb
    exact ((ih hbelow).other (by rintro _ ⟨⟩)).starts hb
  | @invoked _ _ _ _ _ _ s _ _ _ _ _ hline _ _ hresolve _ ih =>
    subst hline
    exact (ih ((hc.actionBelow hresolve s.depth).trans hb)).starts hb
  | runSequence _ ih => exact (ih hb).other (by rintro _ ⟨⟩)
  | execute | tick | unbound | fired | ignored | submitted | settled | resumed => exact hb.elim
  | nil | park | done | fail => exact StartsBelow.nil c bound
  | goesOn _ _ hcourse _ ih ih' =>
    obtain ⟨hfirst, hlater⟩ := List.forall_mem_cons.mp hb
    rw [← hcourse.depth_eq, ← depth_reportFailure] at hlater
    exact (ih hfirst).append (ih' hlater)
  | abort _ _ _ ih => exact ih (List.forall_mem_cons.mp hb).1
  | @perform op _ _ _ _ _ _ _ _ _ _ outcome _ hcourse hcourse' ih ih' =>
    rcases hb with hd | ⟨text, hx, hs⟩
    · cases op with
      | primitive p =>
        exact (ih trivial).append (ih' (Or.inl (hd outcome hcourse.goesOn_primitive)))
      | _ => exact hd.elim
    · -- a call does nothing after its operation
      cases hx
      refine (ih hs).append ?_
      cases outcome <;> cases hcourse' <;> exact StartsBelow.nil c bound
  | look _ ih =>
    rcases hb with hd | ⟨text, hx, -⟩
    · exact ih (Or.inl (hd.2 _))
    · cases hx

/-- What starts within a line can unfold less far than the line. -/
theorem Course.exists_startsBelow (hc : c.IsBuiltin)
    (h : c.Course (.op (.dispatch line)) path s origins moments outcome t origins') :
    ∃ within, moments = ⟨.starts (.dispatch line), path, s⟩ :: within ∧
      c.StartsBelow (c.budget ⟨line, s.depth⟩) within := by
  cases h with
  | blank | unresolved | help => exact ⟨_, rfl, .nil c _⟩
  | refused => exact ⟨_, rfl, (StartsBelow.nil c _).other (by rintro _ ⟨⟩)⟩
  | expanded _ _ _ hd hcourse =>
    have hbelow := hcourse.startsBelow hc (StatementsBelow.of_expansion hd line _)
    exact ⟨_, rfl, hbelow.other (by rintro _ ⟨⟩)⟩
  | invoked hline _ _ hresolve hcourse =>
    subst hline
    exact ⟨_, rfl, hcourse.startsBelow hc (hc.actionBelow hresolve s.depth)⟩

/-! ### The main statement -/

/-- **Termination.** With the built-in commands every operation ends, whatever the session and the
aliases are, and it has a course on every path. A line that starts within a line has less of the
measure left, expansions first and then length. A tick ends with no more sequences resumed than were
parked when it began. -/
theorem calls_terminate (hc : c.IsBuiltin) :
    (∀ op s, ∃ outcome t, c.Returns op s outcome t ∧
      ∀ path origins, origins.length = s.sequencer.parked.length → ∃ moments origins',
        c.Course (.op op) path s origins moments outcome t origins') ∧
    (∀ line path s origins moments outcome t origins',
      c.Course (.op (.dispatch line)) path s origins moments outcome t origins' →
        ∃ within, moments = ⟨.starts (.dispatch line), path, s⟩ :: within ∧
          c.StartsBelow (c.budget ⟨line, s.depth⟩) within) ∧
    ∀ e s, ∃ u, c.Returns (.tick e) s (.ok ()) u ∧
      c.Drains s.sequencer.parked.length (s.advance e) u := by
  refine ⟨fun op s => ?_, fun _ _ _ _ _ _ _ _ h => h.exists_startsBelow hc, fun e s => ?_⟩
  · obtain ⟨outcome, t, hr⟩ := hc.exists_returns op s
    exact ⟨outcome, t, hr, fun path origins hlen => hr.exists_course path hlen⟩
  · obtain ⟨-, u, hd, -⟩ := exists_resumes hc (s.advance e)
    exact ⟨u, hd.returns_tick, hd⟩

/-- Two aliases stand for each other, with a delay in one of them and `exec` in the other: the line
ends, all lines within it have less of the measure left, and so does the tick that follows. -/
theorem calls_terminate_cyclic :
    let c := exact Config.standard
    let s := Session.remembering c.config
      ((TextMap.empty.insert "a" "delay 1; b").insert "b" "exec a; a")
    c.IsBuiltin ∧ ∃ outcome t within origins,
      c.Returns (.dispatch "a") s outcome t ∧
      c.Course (.op (.dispatch "a")) [] s [] (⟨.starts (.dispatch "a"), [], s⟩ :: within)
        outcome t origins ∧
      c.StartsBelow (c.budget ⟨"a", s.depth⟩) within ∧
      ∃ u, c.Returns (.tick ⟨1, 0⟩) t (.ok ()) u ∧
        c.Drains t.sequencer.parked.length (t.advance ⟨1, 0⟩) u := by
  intro c s
  have hc : c.IsBuiltin := isBuiltin_exact _
  obtain ⟨hends, hbelow, hticks⟩ := calls_terminate hc
  obtain ⟨outcome, t, hr, hcourses⟩ := hends (.dispatch "a") s
  obtain ⟨moments, origins, hcourse⟩ := hcourses [] [] rfl
  obtain ⟨within, rfl, hwithin⟩ := hbelow _ _ _ _ _ _ _ _ hcourse
  exact ⟨hc, outcome, t, within, origins, hr, hcourse, hwithin, hticks ⟨1, 0⟩ t⟩

end Console

end CommandConsole

import CommandConsole.Proofs.Session

/-!
# CommandConsole.Proofs.Action — actions that run no command

A direct action performs only operations that run no command, and all it looks at is the list of
commands. Nothing nests in it, so it always ends, and what it does is a function of the session.

* `Action.Direct`, `Action.effect`: direct actions, and what they do.
* `Action.effect_keeps`: what effects keep.
* `Action.Direct.run_eq`: running one is its effect.
* `Action.Direct.uniform_effect`: it has the same effect in all surroundings.
-/

namespace CommandConsole

variable {τ α β : Type}

namespace Action

/-- The action performs only operations that run no command, looks at nothing but the list of
commands, and does not end a chain of alias expansions. -/
def Direct : Action τ α → Prop
  | done _ => True
  | fail e => e.isRecursionLimit = false
  | perform (.primitive _) next => ∀ outcome, GoesOn outcome → (next outcome).Direct
  | perform _ _ => False
  | look next => (∀ v w, v.registry = w.registry → next v = next w) ∧ ∀ v, (next v).Direct

/-- What an action does, operations that run commands left out. -/
def effect [Seconds τ] (c : Console τ) :
    Action τ α → Session τ → Except ConsoleError α × Session τ
  | done value, s => (.ok value, s)
  | fail e, s => (.error e, s)
  | perform (.primitive p) next, s => (next (p.apply c.config s).1).effect c (p.apply c.config s).2
  | perform _ next, s => (next (.ok ())).effect c s
  | look next, s => (next (c.view s)).effect c s

/-- The effect of an operation is what it does. -/
theorem effect_doing [Seconds τ] (c : Console τ) (p : Primitive τ) (s : Session τ) :
    (doing p).effect c s = p.apply c.config s := by
  unfold doing call effect
  rcases p.apply c.config s with ⟨_ | _, t⟩ <;> rfl

/-- What every operation that runs no command keeps, every effect keeps. -/
theorem effect_keeps [Seconds τ] {c : Console τ} {P : Session τ → Prop}
    (hp : ∀ (p : Primitive τ) s, P s → P (p.apply c.config s).2) (a : Action τ α) {s : Session τ}
    (hs : P s) : P (a.effect c s).2 := by
  induction a generalizing s with
  | done value => exact hs
  | fail e => exact hs
  | perform op next ih =>
    cases op with
    | primitive p => exact ih _ (hp p s hs)
    | _ => exact ih _ hs
  | look next ih => exact ih _ hs

namespace Direct

variable {a : Action τ α}

theorem bind (ha : a.Direct) {f : α → Action τ β} (hf : ∀ x, (f x).Direct) :
    (a.bind f).Direct := by
  induction a with
  | done value => exact hf value
  | fail e => exact ha
  | perform op next ih =>
    cases op with
    | primitive p => exact fun outcome ho => ih outcome (ha outcome ho)
    | _ => exact ha.elim
  | look next ih =>
    refine ⟨fun v w h => ?_, fun v => ih v (ha.2 v)⟩
    show (next v).bind f = (next w).bind f
    rw [ha.1 v w h]

variable [Seconds τ] (ha : a.Direct) (c : Console τ)

include ha

/-- Running a direct action is its effect: nothing nests in it. -/
theorem run_eq {perform : Op τ → Session τ → Result τ Outcome}
    (hp : ∀ p s, perform (.primitive p) s = some (p.apply c.config s)) (s : Session τ) :
    a.run perform c.view s = some (a.effect c s) := by
  induction a generalizing s with
  | done value => rfl
  | fail e => rfl
  | perform op next ih =>
    cases op with
    | primitive p =>
      simp only [run, effect, hp]
      exact ih _ (ha _ (p.goesOn_apply c.config s)) _
    | _ => exact ha.elim
  | look next ih => exact ih _ (ha.2 _) s

theorem goesOn_effect (s : Session τ) : GoesOn (a.effect c s).1 := by
  induction a generalizing s with
  | done value => exact goesOn_ok value
  | fail e => exact GoesOn.error ha
  | perform op next ih =>
    cases op with
    | primitive p => exact ih _ (ha _ (p.goesOn_apply c.config s)) _
    | _ => exact ha.elim
  | look next ih => exact ih _ (ha.2 _) s

/-- A direct action has the same effect in all surroundings. -/
theorem uniform_effect : Uniform (a.effect c) := by
  induction a with
  | done value => exact fun _ _ => rfl
  | fail e => exact fun _ _ => rfl
  | perform op next ih =>
    cases op with
    | primitive p =>
      intro s f
      have step : p.apply c.config (s.within f) = _ := p.uniform_apply c.config s f
      show (next (p.apply c.config (s.within f)).1).effect c (p.apply c.config (s.within f)).2 = _
      rw [step]
      exact ih _ (ha _ (p.goesOn_apply c.config s)) _ f
    | _ => exact ha.elim
  | look next ih =>
    intro s f
    -- the list of commands is the console's, not the session's
    have seen : next (c.view (s.within f)) = next (c.view s) := ha.1 _ _ rfl
    show (next (c.view (s.within f))).effect c (s.within f) = _
    rw [seen]
    exact ih _ (ha.2 _) s f

end Direct

/-- A call is its operation and nothing else. -/
theorem run_call {perform : Op τ → Session τ → Result τ Outcome} {see : Session τ → View τ}
    (op : Op τ) (s : Session τ) : (call op).run perform see s = perform op s := by
  unfold call run
  cases perform op s with
  | none => rfl
  | some answer =>
    obtain ⟨outcome, t⟩ := answer
    cases outcome <;> rfl

theorem direct_doing (p : Primitive τ) : (doing p).Direct := by
  intro outcome ho
  cases outcome with
  | ok _ => trivial
  | error e => exact ho e rfl

end Action

end CommandConsole

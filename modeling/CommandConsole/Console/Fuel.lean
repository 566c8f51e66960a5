import CommandConsole.Console

/-!
# CommandConsole.Console.Fuel — fuel does not matter

Fuel only decides whether an operation has an answer, never which: an answer stays as it is when
there is more fuel. So an operation ends in at most one way.

* `Console.perform_extends`: with more fuel, every answer is kept.
* `Console.Returns.stable`: from some fuel on, an operation that ends gives the same answer.
* `Console.Returns.unique`: an operation has one outcome and leaves one session.
-/

namespace CommandConsole

variable {τ α β γ : Type}

/-- Whatever `f` answers, `g` answers too. -/
def Extends (f g : α → β → Option γ) : Prop := ∀ x y r, f x y = some r → g x y = some r

namespace Extends

variable {f g : Op τ → Session τ → Result τ Outcome}

/-- More answers of operations are more answers of actions. -/
theorem actionRun (h : Extends f g) (see : Session τ → View τ) (a : Action τ α) (s : Session τ)
    {r : Except ConsoleError α × Session τ} (hr : a.run f see s = some r) :
    a.run g see s = some r := by
  induction a generalizing s with
  | done => exact hr
  | fail => exact hr
  | look next ih => exact ih _ s hr
  | perform op next ih =>
    simp only [Action.run] at hr ⊢
    split at hr
    · cases hr
    · next outcome t ht =>
      rw [h _ _ _ ht]
      exact ih outcome t hr

end Extends

namespace Console

theorem execute_extends {f g : String → Session τ → Result τ Outcome} (h : Extends f g) :
    Extends (execute f) (execute g) := by
  intro line s r hr
  unfold execute at hr ⊢
  split at hr
  · cases hr
  · next outcome t ht => rwa [h _ _ _ ht]

theorem fire_extends {f g : List String → Session τ → Result τ Outcome} (h : Extends f g) :
    Extends (fire f) (fire g) := by
  intro hook s r hr
  unfold fire at hr ⊢
  split at hr
  · exact hr
  · split at hr
    · cases hr
    · next outcome t ht => rwa [h _ _ _ ht]

theorem submit_extends {f g : String → Session τ → Result τ Outcome} (h : Extends f g)
    (c : Console τ) (s : Session τ) {r : Outcome × Session τ} (hr : c.submit f s = some r) :
    c.submit g s = some r := by
  unfold submit at hr ⊢
  by_cases hb : Text.isBlankText s.prompt.submit.1 = true
  · simpa only [if_pos hb] using hr
  · simp only [if_neg hb] at hr ⊢
    exact execute_extends h _ _ _ hr

variable [Seconds τ] {c : Console τ}

section Lines

variable {f g : String → Session τ → Result τ Outcome}

theorem runStatements_extends (h : Extends f g) :
    Extends (runStatements f) (runStatements g) := by
  intro statements
  induction statements with
  | nil => exact fun _ _ hr => hr
  | cons statement statements ih =>
    intro s r hr
    unfold runStatements at hr ⊢
    by_cases hw : s.sequencer.isWaiting = true
    · rwa [if_pos hw] at hr ⊢
    · rw [if_neg hw] at hr ⊢
      cases hf : f statement s with
      | none => rw [hf] at hr; cases hr
      | some answer =>
        obtain ⟨outcome, t⟩ := answer
        rw [hf] at hr
        rw [h _ _ _ hf]
        cases outcome with
        | ok _ => exact ih t r hr
        | error e =>
          by_cases he : e.isRecursionLimit = true
          · simpa only [if_pos he] using hr
          · simp only [if_neg he] at hr ⊢
            exact ih _ r hr

theorem expandAlias_extends (h : Extends f g) (name : String) :
    Extends (c.expandAlias f name) (c.expandAlias g name) := by
  intro statements s r hr
  unfold expandAlias at hr ⊢
  by_cases hd : c.config.maxAliasDepth ≤ s.depth
  · simpa only [if_pos hd] using hr
  · simp only [if_neg hd] at hr ⊢
    split at hr
    · cases hr
    · next outcome t ht => rwa [runStatements_extends h _ _ _ ht]

end Lines

theorem resume_extends {f g : List String → Session τ → Result τ Outcome} (h : Extends f g)
    {most most' : Nat} (hm : most ≤ most') (s : Session τ) {r : Session τ}
    (hr : resume f most s = some r) : resume g most' s = some r := by
  induction most generalizing most' s with
  | zero =>
    unfold resume at hr
    cases most' with
    | zero => exact hr
    | succ most' =>
      unfold resume
      split at hr
      · next hp => rwa [Option.isNone_iff_eq_none.1 hp]
      · cases hr
  | succ most ih =>
    obtain ⟨k, rfl⟩ : ∃ k, most' = k + 1 := ⟨most' - 1, by omega⟩
    unfold resume at hr ⊢
    cases hp : s.sequencer.popReady? with
    | none => rwa [hp] at hr
    | some ready =>
      simp only [hp] at hr ⊢
      split at hr
      · cases hr
      · next ht =>
        rw [h _ _ _ ht]
        exact ih (by omega) _ hr

theorem dispatch_extends {f g : Op τ → Session τ → Result τ Outcome} (h : Extends f g) :
    Extends (c.dispatch f) (c.dispatch g) := by
  intro line s r hr
  unfold dispatch at hr ⊢
  by_cases hb : Text.trim line = ""
  · simpa only [if_pos hb] using hr
  · simp only [if_neg hb] at hr ⊢
    split at hr
    · exact expandAlias_extends (fun statement => h (.dispatch statement)) _ _ _ _ hr
    · split at hr
      · exact hr
      · exact hr
      · exact h.actionRun _ _ _ hr

/-- With more fuel, every answer is kept. -/
theorem perform_extends {fuel fuel' : Nat} (hf : fuel ≤ fuel') :
    Extends (c.perform fuel) (c.perform fuel') := by
  induction fuel generalizing fuel' with
  | zero => intro _ _ _ hr; cases hr
  | succ fuel ih =>
    obtain ⟨k, rfl⟩ : ∃ k, fuel' = k + 1 := ⟨fuel' - 1, by omega⟩
    have below : Extends (c.perform fuel) (c.perform k) := ih (by omega)
    have lines : Extends (fun text => c.perform fuel (.dispatch text))
        (fun text => c.perform k (.dispatch text)) := fun text => below (.dispatch text)
    intro op s r hr
    cases op with
    | primitive => exact hr
    | dispatch text => exact dispatch_extends below _ _ _ hr
    | execute text => exact execute_extends lines _ _ _ hr
    | runSequence text => exact runStatements_extends lines _ _ _ hr
    | tick e =>
      obtain ⟨t, ht, rfl⟩ := Option.map_eq_some_iff.1 hr
      exact Option.map_eq_some_iff.2
        ⟨t, resume_extends (runStatements_extends lines) (by omega) _ ht, rfl⟩
    | fire hook => exact fire_extends (runStatements_extends lines) _ _ _ hr
    | submit => exact submit_extends lines c _ hr

/-- From some fuel on, an operation that ends gives the same answer. -/
theorem Returns.stable {op : Op τ} {s t : Session τ} {outcome : Outcome}
    (h : c.Returns op s outcome t) :
    ∃ least, ∀ fuel, least ≤ fuel → c.perform fuel op s = some (outcome, t) := by
  obtain ⟨least, hl⟩ := h
  exact ⟨least, fun _ hf => perform_extends hf _ _ _ hl⟩

/-- An operation has one outcome and leaves one session. -/
theorem Returns.unique {op : Op τ} {s t u : Session τ} {outcome outcome' : Outcome}
    (ht : c.Returns op s outcome t) (hu : c.Returns op s outcome' u) :
    outcome = outcome' ∧ t = u := by
  obtain ⟨m, hm⟩ := ht.stable
  obtain ⟨n, hn⟩ := hu.stable
  have h := hm _ (Nat.le_max_left m n)
  rw [hn _ (Nat.le_max_right m n)] at h
  exact ⟨(congrArg Prod.fst (Option.some.inj h)).symm, (congrArg Prod.snd (Option.some.inj h)).symm⟩

end Console

end CommandConsole

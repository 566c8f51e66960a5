import CommandConsole.Proofs.Storing

/-!
# CommandConsole.Proofs.Throughout — what holds at every moment

Handlers see a session in the middle of the operation that runs them, not only between operations.
A run up to a moment in it is made of runs, so what is tallied of runs is tallied of it too.

* `Console.Course.tallied_at`: what is tallied of a run up to a moment.
* `Console.Seen`: the sessions between operations, and those that handlers see.
* `Console.Seen.tallied`, `Console.Seen.normal`: what holds of all of them.
-/

namespace CommandConsole

namespace Console

variable {τ : Type} [Seconds τ] {c : Console τ} {s₀ s t : Session τ} {outcome : Outcome}

/-- Something is tallied of what leads from one ledger to another. -/
def Tallied (c : Console τ) (x y : Ledger) : Prop :=
  ∃ moments, ∀ {R : List (Moment τ) → Ledger → Ledger → Prop}, c.Tallies R → R moments x y

theorem Tallied.refl (x : Ledger) : c.Tallied x x := ⟨[], fun hR => hR.nil x⟩

theorem Tallied.trans {x y z : Ledger} (h : c.Tallied x y) (h' : c.Tallied y z) :
    c.Tallied x z := by
  obtain ⟨moments, hR⟩ := h
  obtain ⟨moments', hR'⟩ := h'
  exact ⟨moments ++ moments', fun h => h.append (hR h) (hR' h)⟩

theorem Course.tallied_end {job : Job τ} {path : Path} {origins origins' : List Path}
    {moments : List (Moment τ)}
    (h : c.Course job path s origins moments outcome t origins') : c.Tallied s.ledger t.ledger :=
  ⟨moments, fun hR => h.tallied hR⟩

/-- **Moments**: what is tallied of runs is tallied of a run up to any moment in it. -/
theorem Course.tallied_at {job : Job τ} {path : Path} {origins origins' : List Path}
    {moments : List (Moment τ)}
    (h : c.Course job path s origins moments outcome t origins') {m : Moment τ}
    (hm : m ∈ moments) : c.Tallied s.ledger m.session.ledger := by
  induction h with
  | primitive | blank | unresolved | help | unbound | ignored =>
    rw [List.mem_singleton] at hm
    subst hm
    exact .refl _
  | refused =>
    obtain rfl | hm := List.mem_cons.mp hm
    · exact .refl _
    · rw [List.mem_singleton] at hm
      subst hm
      exact .refl _
  | expanded _ _ _ _ _ ih =>
    obtain rfl | hm := List.mem_cons.mp hm
    · exact .refl _
    · obtain rfl | hm := List.mem_cons.mp hm
      · exact .refl _
      · exact ih hm
  | invoked _ _ _ _ _ ih | execute _ ih | runSequence _ ih | tick _ ih | fired _ _ ih
  | submitted _ _ ih =>
    obtain rfl | hm := List.mem_cons.mp hm
    · exact .refl _
    · exact ih hm
  | nil | park | done | fail | settled => exact absurd hm List.not_mem_nil
  | abort _ _ _ ih | look _ ih => exact ih hm
  | goesOn _ _ hfirst _ ih ih' =>
    obtain hm | hm := List.mem_append.mp hm
    · exact ih hm
    · have hlater := ih' hm
      rw [ledger_reportFailure] at hlater
      exact hfirst.tallied_end.trans hlater
  | resumed _ _ hfirst _ ih ih' =>
    obtain hm | hm := List.mem_append.mp hm
    · exact ih hm
    · have hlater := ih' hm
      rw [ledger_putBack, ledger_reportFailure] at hlater
      exact hfirst.tallied_end.trans hlater
  | perform hfirst _ ih ih' =>
    obtain hm | hm := List.mem_append.mp hm
    · exact ih hm
    · exact hfirst.tallied_end.trans (ih' hm)

/-- The sessions that are seen from a session on: those that operations lead to, and those in which
something happens within an operation. -/
inductive Seen (c : Console τ) (s₀ : Session τ) : Session τ → Prop
  | between {s : Session τ} : c.Leads s₀ s → Seen c s₀ s
  | within {op path origins moments outcome origins' m} {s t : Session τ} : c.Leads s₀ s →
      c.Course (.op op) path s origins moments outcome t origins' → m ∈ moments →
      Seen c s₀ m.session

/-- What is tallied of runs holds from a session to every session seen from it on. -/
theorem Seen.tallied (h : c.Seen s₀ s) : c.Tallied s₀.ledger s.ledger := by
  cases h with
  | between hleads => exact hleads.exists_tallied
  | within hleads hcourse hm =>
    exact Tallied.trans hleads.exists_tallied (hcourse.tallied_at hm)

/-- What is remembered is in the normal form in every session that is seen after a start. -/
theorem Seen.normal {store : Store} (hstart : Session.start c.config store = .ok s₀)
    (h : c.Seen s₀ s) : s.ledger.Normal c.config := by
  obtain ⟨moments, htallied⟩ := h.tallied
  have hrange := Config.min_le_max_of_check (Session.of_start hstart).1
  exact (htallied (tallies_normal hrange) (Session.normal_start hstart)).1

end Console

end CommandConsole

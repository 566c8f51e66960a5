import CommandConsole.Proofs.Worklist

/-!
# CommandConsole.Proofs.Unfolding — runs of the worklist

A run takes entries off the front of the work, depth first and from left to right. It goes on until
nothing is left, sequences have to wait or an alias nests too deep, and there is only one such run.

* `Console.Unfolds`: runs, with the entries that they take.
* `Console.Unfolds.unique`: a run to the end is the only one.
* `Console.Unfolds.within`, `Console.Unfolds.of_bare_eq`: a run is the same in all surroundings.
* `Console.Ends`: how a list of work ends, and which sequences it leaves parked.
-/

namespace CommandConsole

variable {τ : Type} [Seconds τ]

/-! ### Parked sequences -/

namespace Session

/-- The log line about a parked sequence. -/
def parkingNote (s : Session τ) (q : ParkedSequence) : LogLine :=
  let remaining := Seconds.hundredths s.sequencer.remaining
  .debug s!"Parking {q.statements.length} statements ({remaining}s remaining)"

/-- Parks sequences in turn. -/
def parkAll (s : Session τ) (queue : List ParkedSequence) : Session τ :=
  { s with
    sequencer := s.sequencer.restoreParked queue
    log := (queue.map s.parkingNote).reverse ++ s.log }

theorem park_eq (s : Session τ) (statements : List String) :
    s.park statements = s.parkAll [⟨statements, s.depth⟩] := rfl

theorem parkAll_nil (s : Session τ) : s.parkAll [] = s := by
  simp [parkAll, Sequencer.restoreParked]

theorem parkAll_parkAll (s : Session τ) (q r : List ParkedSequence) :
    (s.parkAll q).parkAll r = s.parkAll (q ++ r) := by
  have notes : (s.parkAll q).parkingNote = s.parkingNote := rfl
  unfold parkAll at notes ⊢
  rw [notes]
  simp [Sequencer.restoreParked]

end Session

namespace Console

/-! ### Runs -/

/-- A run from a list of work and a session: the entries it takes, and what it comes to. -/
inductive Unfolds (c : Console τ) :
    List Entry → Session τ → List Entry → List Entry → Session τ → Prop
  | stop (work : List Entry) (s : Session τ) : Unfolds c work s [] work s
  | step {e : Entry} {work front trace rest : List Entry} {s t u : Session τ} :
      s.sequencer.isWaiting = false → c.step e s = (.onto front, t) →
      Unfolds c (front ++ work) t trace rest u → Unfolds c (e :: work) s (e :: trace) rest u

/-- Nothing is left, or sequences have to wait. -/
def Settled (work : List Entry) (s : Session τ) : Prop :=
  work = [] ∨ s.sequencer.isWaiting = true

/-- The next entry is an alias that nests too deep. -/
def Refused (c : Console τ) (work : List Entry) (s : Session τ) (name : String) : Prop :=
  s.sequencer.isWaiting = false ∧ ∃ e rest, work = e :: rest ∧ (c.step e s).1 = .tooDeep name

/-- A run goes no further. -/
def Halts (c : Console τ) (work : List Entry) (s : Session τ) : Prop :=
  Settled work s ∨ ∃ name, c.Refused work s name

variable {c : Console τ} {work rest trace : List Entry} {s t u : Session τ}

namespace Unfolds

theorem trans (h : c.Unfolds work s trace rest t) {trace' rest' : List Entry}
    (h' : c.Unfolds rest t trace' rest' u) : c.Unfolds work s (trace ++ trace') rest' u := by
  induction h with
  | stop => exact h'
  | step hw hs _ ih => exact .step hw hs (ih h')

/-- Work behind stays where it is. -/
theorem append (h : c.Unfolds work s trace rest t) (behind : List Entry) :
    c.Unfolds (work ++ behind) s trace (rest ++ behind) t := by
  induction h with
  | stop => exact .stop _ _
  | step hw hs _ ih =>
    rw [List.append_assoc] at ih
    exact .step hw hs ih

/-- What a step keeps, a run keeps. -/
theorem keeps {P : Session τ → Prop} (h : c.Unfolds work s trace rest t)
    (hp : ∀ {e front s t}, s.sequencer.isWaiting = false → c.step e s = (.onto front, t) →
      P s → P t) (hs : P s) : P t := by
  induction h with
  | stop => exact hs
  | step hw hstep _ ih => exact ih (hp hw hstep hs)

theorem keeps_sequencer {Q : Sequencer τ → Prop} (h : c.Unfolds work s trace rest t)
    (hq : ∀ q q' : Sequencer τ, q.Delays q' → Q q → Q q') (hs : Q s.sequencer) :
    Q t.sequencer :=
  h.keeps (P := fun x => Q x.sequencer) (fun _ hstep hx => step_keeps hq hstep hx) hs

/-- No entry ever comes from more expansions than the limit. -/
theorem depth_le (h : c.Unfolds work s trace rest t)
    (hd : ∀ e ∈ work, e.depth ≤ c.config.maxAliasDepth) :
    ∀ e ∈ rest, e.depth ≤ c.config.maxAliasDepth := by
  induction h with
  | stop => exact hd
  | step _ hs _ ih =>
    refine ih fun e he => ?_
    rcases List.mem_append.mp he with he | he
    · exact depth_le_of_step hs (hd _ (by simp)) e he
    · exact hd e (by simp [he])

/-! ### There is only one run -/

theorem of_halts (h : c.Unfolds work s trace rest t) (hw : c.Halts work s) :
    trace = [] ∧ rest = work ∧ t = s := by
  cases h with
  | stop => exact ⟨rfl, rfl, rfl⟩
  | step hs hstep _ =>
    rcases hw with (hnil | hwait) | ⟨name, -, e, rest, hwork, htoo⟩
    · cases hnil
    · rw [hs] at hwait
      cases hwait
    · cases hwork
      rw [hstep] at htoo
      cases htoo

/-- A run to the end goes through what every other run comes to. -/
theorem rest_of_halts (h : c.Unfolds work s trace rest t) {trace' rest' : List Entry}
    (h' : c.Unfolds work s trace' rest' u) (hu : c.Halts rest' u) :
    ∃ more, trace' = trace ++ more ∧ c.Unfolds rest t more rest' u := by
  induction h generalizing trace' with
  | stop => exact ⟨trace', rfl, h'⟩
  | @step e work front trace rest s t v hw hs hrun ih =>
    cases h' with
    | stop =>
      obtain ⟨hnil, -, -⟩ := (Unfolds.step hw hs hrun).of_halts hu
      cases hnil
    | step hw' hs' hrun' =>
      rw [hs] at hs'
      cases hs'
      obtain ⟨more, rfl, hmore⟩ := ih hrun'
      exact ⟨more, rfl, hmore⟩

/-- **Determinism**: two runs to the end are one. -/
theorem unique (h : c.Unfolds work s trace rest t) (ht : c.Halts rest t)
    {trace' rest' : List Entry} (h' : c.Unfolds work s trace' rest' u) (hu : c.Halts rest' u) :
    trace' = trace ∧ rest' = rest ∧ u = t := by
  obtain ⟨more, rfl, hmore⟩ := h.rest_of_halts h' hu
  obtain ⟨rfl, rfl, rfl⟩ := hmore.of_halts ht
  exact ⟨List.append_nil _, rfl, rfl⟩

/-! ### Surroundings -/

section Surroundings

variable (hc : c.IsBuiltin) (h : c.Unfolds work s trace rest t)

include hc h

theorem parked_eq : t.sequencer.parked = s.sequencer.parked := by
  refine h.keeps (P := fun x => x.sequencer.parked = s.sequencer.parked) ?_ rfl
  intro e front x y _ hs hx
  rw [← hx, ← (hc.uniform_step e).parked_eq x, hs]

theorem depth_eq : t.depth = s.depth := by
  refine h.keeps (P := fun x => x.depth = s.depth) ?_ rfl
  intro e front x y _ hs hx
  rw [← hx, ← (hc.uniform_step e).depth_eq x, hs]

theorem within (f : Frame) : c.Unfolds work (s.within f) trace rest (t.within f) := by
  induction h with
  | stop => exact .stop _ _
  | step hw hs _ ih =>
    refine .step hw ?_ ih
    rw [hc.uniform_step, hs]

/-- A run in some surroundings is one without any, in these surroundings. -/
theorem exists_bare : ∃ t', c.Unfolds work s.bare trace rest t' ∧ t = t'.within s.frame := by
  suffices h' : ∀ x f, s = x.within f →
      ∃ t', c.Unfolds work x trace rest t' ∧ t = t'.within f from h' s.bare s.frame rfl
  induction h with
  | stop => exact fun x f hx => ⟨x, .stop _ _, hx⟩
  | @step e _ _ _ _ _ _ _ hw hs _ ih =>
    rintro x f rfl
    rw [hc.uniform_step] at hs
    cases hx : c.step e x with
    | mk progress y =>
      rw [hx] at hs
      cases hs
      obtain ⟨t', ht, rfl⟩ := ih y f rfl
      exact ⟨t', .step hw hx ht, rfl⟩

/-- Sessions that differ in their surroundings only have the same runs. -/
theorem of_bare_eq {s' : Session τ} (hs : s'.bare = s.bare) :
    ∃ t', c.Unfolds work s' trace rest t' ∧ t'.bare = t.bare := by
  obtain ⟨t', ht, rfl⟩ := h.exists_bare hc
  rw [← hs] at ht
  exact ⟨t'.within s'.frame, ht.within hc s'.frame, rfl⟩

/-- A run is the same at another depth. -/
theorem at_depth (depth : Nat) :
    c.Unfolds work { s with depth } trace rest { t with depth } := by
  obtain ⟨t', ht, rfl⟩ := h.exists_bare hc
  exact ht.within hc ⟨s.sequencer.parked, depth, s.log⟩

end Surroundings

end Unfolds

/-! ### How work ends -/

/-- How a list of work ends, and the entries it takes until then: what sequences have to wait for is
left parked, or an alias nests too deep and everything behind it is dropped. -/
inductive Ends (c : Console τ) (work : List Entry) (s : Session τ) :
    List Entry → Outcome → Session τ → Prop
  | parked {trace : List Entry} {queue : List ParkedSequence} {t : Session τ} :
      c.Unfolds work s trace (worklist queue) t → queue = [] ∨ t.sequencer.isWaiting = true →
      (∀ q ∈ queue, q.statements ≠ []) → Ends c work s trace (.ok ()) (t.parkAll queue)
  | refused {trace rest : List Entry} {t : Session τ} {name : String} :
      c.Unfolds work s trace rest t → c.Refused rest t name →
      Ends c work s trace (.error (.recursionLimit name c.config.maxAliasDepth)) t

namespace Ends

variable {outcome : Outcome}

theorem of_unfolds (h : c.Unfolds work s trace [] t) : c.Ends work s trace (.ok ()) t := by
  have ends : c.Ends work s trace (.ok ()) (t.parkAll []) := .parked h (Or.inl rfl) nofun
  rwa [Session.parkAll_nil] at ends

/-- Work ends well, or as an alias nests too deep. -/
theorem ok_or (h : c.Ends work s trace outcome t) : outcome = .ok () ∨
    ∃ name, outcome = .error (.recursionLimit name c.config.maxAliasDepth) := by
  cases h with
  | parked => exact Or.inl rfl
  | refused => exact Or.inr ⟨_, rfl⟩

theorem depth_eq (hc : c.IsBuiltin) (h : c.Ends work s trace outcome t) : t.depth = s.depth := by
  cases h with
  | parked hrun =>
    have kept := hrun.depth_eq hc
    exact kept
  | refused hrun => exact hrun.depth_eq hc

theorem exists_of_ok (h : c.Ends work s trace (.ok ()) u) : ∃ queue t, u = t.parkAll queue ∧
    c.Unfolds work s trace (worklist queue) t ∧ (queue = [] ∨ t.sequencer.isWaiting = true) ∧
    ∀ q ∈ queue, q.statements ≠ [] := by
  cases h with
  | parked hrun hq hne => exact ⟨_, _, rfl, hrun, hq, hne⟩

/-- What stands behind an alias that nests too deep is dropped. -/
theorem append_of_error {e : ConsoleError} (h : c.Ends work s trace (.error e) t)
    (behind : List Entry) : c.Ends (work ++ behind) s trace (.error e) t := by
  cases h with
  | refused hrun hr =>
    obtain ⟨hw, e, rest, rfl, hs⟩ := hr
    exact .refused (hrun.append behind) ⟨hw, e, rest ++ behind, rfl, hs⟩

/-- A run first, and then the rest. -/
theorem after (h : c.Unfolds work s trace rest t) {trace' : List Entry}
    (h' : c.Ends rest t trace' outcome u) : c.Ends work s (trace ++ trace') outcome u := by
  cases h' with
  | parked hrun hq hne => exact .parked (h.trans hrun) hq hne
  | refused hrun hr => exact .refused (h.trans hrun) hr

/-- What comes of an entry first. -/
theorem cons {e : Entry} {front : List Entry} (hw : s.sequencer.isWaiting = false)
    (hs : c.step e s = (.onto front, t)) (h : c.Ends front t trace outcome u) :
    c.Ends [e] s (e :: trace) outcome u := by
  have first : c.Unfolds [e] s [e] front t := by
    refine .step hw hs ?_
    rw [List.append_nil]
    exact .stop front t
  exact h.after first

theorem at_depth (hc : c.IsBuiltin) (h : c.Ends work s trace outcome t) (depth : Nat) :
    c.Ends work { s with depth } trace outcome { t with depth } := by
  cases h with
  | parked hrun hq hne => exact .parked (hrun.at_depth hc depth) hq hne
  | refused hrun hr =>
    obtain ⟨hw, e, rest, rfl, hs⟩ := hr
    refine .refused (hrun.at_depth hc depth) ⟨hw, e, rest, rfl, ?_⟩
    exact ((hc.uniform_step e).fst_bare { t with depth }).symm.trans
      (((hc.uniform_step e).fst_bare t).trans hs)

end Ends

end Console

end CommandConsole

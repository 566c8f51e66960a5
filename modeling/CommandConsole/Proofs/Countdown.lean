import Mathlib.Algebra.Order.BigOperators.Group.List
import Mathlib.Tactic.Linarith
import CommandConsole.Proofs.Depth
import CommandConsole.Proofs.Refinement
import CommandConsole.Proofs.Strands

/-!
# CommandConsole.Proofs.Countdown — delays are waited for in full

All sequences share one countdown, to which any line can add at any time, and which stops at zero.
Here it is compared with what has happened: with exact amounts, while it is positive, it is the sum
of the delays since it was last zero less the time that has passed since then. So no statement
starts after a delay before the time of the delay has passed.

* `Moment.added`, `Moment.passed`: what a moment adds to the countdown, and what it takes away.
* `Console.SinceZero`: what is left, in terms of what has happened.
* `Console.Strand.le_remaining`, `Console.Strand.since_zero`: the countdown along a run.
* `Console.Timeline`: the calls of a host and everything that happens in them.
* `Console.delays_in_full`: the countdown, and the time between a delay and a statement.
-/

namespace CommandConsole

/-! ### What is added and what is taken away -/

/-- What a moment adds to the countdown: the amount that is requested, up to the ceiling. -/
def Moment.added (ceiling : Rat) (m : Moment Rat) : Rat :=
  match m.occasion with
  | .starts (.primitive (.requestDelay amount)) => if 0 < amount then min amount ceiling else 0
  | _ => 0

/-- The time that passes at a moment. -/
def Moment.passed (m : Moment Rat) : Rat :=
  match m.occasion with
  | .starts (.tick e) => e.toRat
  | _ => 0

/-- The countdown has this ceiling and is not below zero. -/
structure Sequencer.Capped (ceiling : Rat) (q : Sequencer Rat) : Prop where
  ceiling_eq : q.ceiling = ceiling
  nonneg : 0 ≤ q.remaining

theorem Moment.added_nonneg {ceiling : Rat} (hceiling : 0 ≤ ceiling) (m : Moment Rat) :
    0 ≤ m.added ceiling := by
  unfold added
  split
  · split
    · next hp => exact le_min hp.le hceiling
    · rfl
  · rfl

/-- A request adds its amount, up to the ceiling. -/
theorem Session.remaining_requestDelay (s : Session Rat) (amount : Rat) :
    (s.requestDelay amount).sequencer.remaining = s.sequencer.remaining +
      if 0 < amount then min amount s.sequencer.ceiling else 0 := by
  rw [s.sequencer_requestDelay amount]
  by_cases hp : 0 < amount
  · have happlied : s.sequencer.applied amount = min amount s.sequencer.ceiling := by
      unfold Sequencer.applied
      rcases lt_or_ge s.sequencer.ceiling amount with hlt | hle
      · rw [min_eq_right hlt.le]
        exact if_pos (decide_eq_true hlt)
      · rw [min_eq_left hle]
        exact if_neg (by simpa [Seconds.exceeds] using hle)
    rw [if_pos (Rat.isPositive_iff.mpr hp), if_pos hp, happlied]
    rfl
  · rw [if_neg (mt Rat.isPositive_iff.mp hp), if_neg hp, add_zero]

/-- A moment adds to the countdown and takes away from it, as far as there is anything left. -/
theorem Moment.remaining_clock {m : Moment Rat} {ceiling : Rat} (hceiling : 0 ≤ ceiling)
    (h : m.session.clock.Capped ceiling) : m.clock.ceiling = ceiling ∧
      m.clock.remaining = max 0 (m.session.clock.remaining + m.added ceiling - m.passed) := by
  obtain ⟨occasion, path, s⟩ := m
  have hnonneg : 0 ≤ s.sequencer.remaining := h.nonneg
  have hceil : s.sequencer.ceiling = ceiling := h.ceiling_eq
  have kept : s.clock.ceiling = ceiling ∧
      s.clock.remaining = max 0 (s.clock.remaining + 0 - 0) := by
    refine ⟨hceil, ?_⟩
    rw [add_zero, sub_zero, max_eq_right h.nonneg]
  cases occasion with
  | starts op =>
    cases op with
    | primitive p =>
      cases p with
      | requestDelay amount =>
        have hadded : 0 ≤ if 0 < amount then min amount ceiling else 0 :=
          added_nonneg hceiling ⟨.starts (.primitive (.requestDelay amount)), path, s⟩
        refine ⟨(s.ceiling_requestDelay amount).trans hceil, ?_⟩
        show (s.requestDelay amount).sequencer.remaining =
          max 0 (s.sequencer.remaining + (if 0 < amount then min amount ceiling else 0) - 0)
        rw [s.remaining_requestDelay amount, hceil, sub_zero,
          max_eq_right (add_nonneg hnonneg hadded)]
      | _ => exact kept
    | tick e =>
      refine ⟨hceil, ?_⟩
      show Seconds.countDown s.sequencer.remaining e =
        max 0 (s.sequencer.remaining + 0 - e.toRat)
      rw [Rat.countDown_eq, add_zero]
    | _ => exact kept
  | _ => exact kept

theorem Moment.capped_clock {m : Moment Rat} {ceiling : Rat} (hceiling : 0 ≤ ceiling)
    (h : m.session.clock.Capped ceiling) : m.clock.Capped ceiling := by
  obtain ⟨hsame, hremaining⟩ := m.remaining_clock hceiling h
  exact ⟨hsame, hremaining ▸ le_max_left _ _⟩

namespace Console

/-! ### Runs -/

/-- The delays that are added, in all. -/
def totalAdded (ceiling : Rat) (moments : List (Moment Rat)) : Rat :=
  (moments.map (Moment.added ceiling)).sum

/-- The time that passes, in all. -/
def totalPassed (moments : List (Moment Rat)) : Rat := (moments.map Moment.passed).sum

/-- What is left of the countdown: the delays since it was last zero, less the time since then. -/
def SinceZero (ceiling : Rat) (before : List (Moment Rat)) (remaining : Rat) : Prop :=
  ∃ earlier m since, before = earlier ++ m :: since ∧ m.session.sequencer.remaining = 0 ∧
    (∀ m' ∈ since, 0 < m'.session.sequencer.remaining) ∧
    remaining = totalAdded ceiling (m :: since) - totalPassed (m :: since)

/-- The countdown is positive from the start on. -/
def SinceStart (ceiling start : Rat) (before : List (Moment Rat)) (remaining : Rat) : Prop :=
  0 < start ∧ (∀ m ∈ before, 0 < m.session.sequencer.remaining) ∧
    remaining = start + totalAdded ceiling before - totalPassed before

/-- The session at a place of a run: the one that the next moment finds, or the last one. -/
def sessionAt (after : List (Moment Rat)) (s : Session Rat) : Session Rat :=
  (after.head?.map Moment.session).getD s

variable {c : Console Rat} {s t : Session Rat} {origins origins' : List Path}
  {moments before between after : List (Moment Rat)} {m : Moment Rat} {q q' : Sequencer Rat}
  {ceiling amount : Rat}

@[simp] theorem totalAdded_nil (ceiling : Rat) : totalAdded ceiling [] = 0 := rfl

@[simp] theorem totalPassed_nil : totalPassed [] = 0 := rfl

@[simp] theorem totalAdded_cons (ceiling : Rat) (m : Moment Rat) (moments : List (Moment Rat)) :
    totalAdded ceiling (m :: moments) = m.added ceiling + totalAdded ceiling moments := by
  simp [totalAdded]

@[simp] theorem totalPassed_cons (m : Moment Rat) (moments : List (Moment Rat)) :
    totalPassed (m :: moments) = m.passed + totalPassed moments := by
  simp [totalPassed]

theorem totalAdded_nonneg (hceiling : 0 ≤ ceiling) (moments : List (Moment Rat)) :
    0 ≤ totalAdded ceiling moments := by
  refine List.sum_nonneg fun x hx => ?_
  obtain ⟨m, -, rfl⟩ := List.mem_map.mp hx
  exact m.added_nonneg hceiling

namespace Strand

/-- At each place the countdown is what the moments before have made of it. -/
theorem clock_at (h : c.Strand after q t.clock) : (sessionAt after t).clock = q := by
  cases h <;> rfl

/-- What can come behind each moment is what comes. -/
theorem behind (h : c.Strand (before ++ m :: after) q q') : c.Behind m after := by
  induction before generalizing q with
  | nil =>
    cases h with
    | cons hbehind _ => exact hbehind
  | cons first before ih =>
    cases h with
    | cons _ hlater => exact ih hlater

/-- No less is left than what has been added and has not passed. -/
theorem le_remaining (hceiling : 0 ≤ ceiling) (h : c.Strand (between ++ after) q q')
    (hq : q.Capped ceiling) : ∃ x, c.Strand after x q' ∧ x.Capped ceiling ∧
      q.remaining + totalAdded ceiling between - totalPassed between ≤ x.remaining := by
  induction between generalizing q with
  | nil => exact ⟨q, h, hq, by simp⟩
  | cons m between ih =>
    cases h with
    | cons _ hlater =>
      obtain ⟨-, hm⟩ := m.remaining_clock hceiling hq
      obtain ⟨x, hafter, hx, hle⟩ := ih hlater (m.capped_clock hceiling hq)
      refine ⟨x, hafter, hx, ?_⟩
      rw [totalAdded_cons, totalPassed_cons]
      linarith [le_max_right 0 (m.session.clock.remaining + m.added ceiling - m.passed)]

/-- While the countdown is positive it is the sum of the delays since it was last zero, or since the
start, less the time that has passed since then. -/
theorem since_zero (hceiling : 0 ≤ ceiling) (h : c.Strand (before ++ after) q q')
    (hq : q.Capped ceiling) : ∃ x, c.Strand after x q' ∧
      (x.remaining = 0 ∨ SinceStart ceiling q.remaining before x.remaining ∨
        SinceZero ceiling before x.remaining) := by
  induction before generalizing q with
  | nil =>
    refine ⟨q, h, ?_⟩
    rcases hq.nonneg.eq_or_lt with hzero | hpos
    · exact Or.inl hzero.symm
    · exact Or.inr (Or.inl ⟨hpos, List.forall_mem_nil _, by simp⟩)
  | cons m before ih =>
    cases h with
    | cons _ hlater =>
      obtain ⟨-, hm⟩ := m.remaining_clock hceiling hq
      obtain ⟨x, hafter, hx⟩ := ih hlater (m.capped_clock hceiling hq)
      refine ⟨x, hafter, hx.imp_right fun hx => ?_⟩
      rcases hx with ⟨hpos, hall, hsum⟩ | ⟨earlier, last, since, rfl, hlast, hall, hsum⟩
      · -- the countdown is positive behind the moment, so nothing has been cut off at zero
        have hexact : m.clock.remaining =
            m.session.sequencer.remaining + m.added ceiling - m.passed := by
          rw [hm] at hpos ⊢
          exact max_eq_right (le_of_lt ((lt_max_iff.mp hpos).resolve_left (lt_irrefl 0)))
        have hsum' : x.remaining = m.session.sequencer.remaining +
            totalAdded ceiling (m :: before) - totalPassed (m :: before) := by
          rw [totalAdded_cons, totalPassed_cons]
          linarith
        rcases hq.nonneg.eq_or_lt with hzero | hpos'
        · have hzero' : m.session.sequencer.remaining = 0 := hzero.symm
          refine Or.inr ⟨[], m, before, rfl, hzero', hall, ?_⟩
          rw [hsum', hzero', zero_add]
        · exact Or.inl ⟨hpos', List.forall_mem_cons.mpr ⟨hpos', hall⟩, hsum'⟩
      · exact Or.inr ⟨m :: earlier, last, since, rfl, hlast, hall, hsum⟩

end Strand

/-! ### Calls -/

/-- A session between calls of a host that enters lines, fires hooks and lets time pass, with the
paths of what is parked, and everything that has happened since the start. -/
inductive Timeline (c : Console Rat) : Session Rat → List Path → List (Moment Rat) → Prop
  | start {store : Store} {s : Session Rat} :
      Session.start c.config store = .ok s → Timeline c s [] []
  | call {call : Call} {s t : Session Rat} {origins origins' : List Path}
      {moments later : List (Moment Rat)} {outcome : Outcome} : Timeline c s origins moments →
      c.Returns call.op s outcome t → c.Course (.op call.op) [] s origins later outcome t origins' →
      Timeline c t origins' (moments ++ later)

/-- A line starts that is a statement: it is not the line that has just been entered. -/
def StatementBehind (earlier : List (Moment Rat)) (m : Moment Rat) : Prop :=
  ∃ line, m.occasion = .starts (.dispatch line) ∧
    ∀ previous ∈ earlier.getLast?, previous.occasion ≠ .starts (.execute line)

namespace Timeline

theorem history (h : c.Timeline s origins moments) : c.History s origins moments := by
  induction h with
  | start hstart => exact .start hstart
  | call _ hr hcourse ih => exact ih.after hr hcourse

/-- Every call that ends goes on with the timeline. -/
theorem exists_after (h : c.Timeline s origins moments) (call : Call) {outcome : Outcome}
    (hr : c.Returns call.op s outcome t) : ∃ later origins',
      c.Course (.op call.op) [] s origins later outcome t origins' ∧
        c.Timeline t origins' (moments ++ later) := by
  obtain ⟨later, origins', hcourse, -⟩ := h.history.exists_after hr
  exact ⟨later, origins', hcourse, h.call hr hcourse⟩

/-- The moments of a timeline lead from an idle countdown, under the ceiling of the settings. -/
theorem strand (hc : c.IsBuiltin) (h : c.Timeline s origins moments) :
    0 < c.config.maxDelay ∧ c.Strand moments (.start c.config.maxDelay) s.clock := by
  induction h with
  | start hstart =>
    obtain ⟨hcheck, hq, -⟩ := Session.of_start hstart
    refine ⟨Rat.isPositive_iff.mp (Config.of_check hcheck).2, ?_⟩
    have hclock : Session.clock _ = .start c.config.maxDelay :=
      congrArg (fun q : Sequencer Rat => { q with parked := [] }) hq
    exact hclock ▸ .nil _
  | @call call _ _ _ _ _ _ _ _ _ hcourse ih =>
    refine ⟨ih.1, ih.2.append ?_ (hcourse.strand hc ?_)⟩
    · obtain ⟨rest, rfl⟩ := hcourse.starts
      rintro m ⟨⟩ line hline
      rcases call with (text | hook) | e <;> cases hline
    · rcases call with (text | hook) | e <;> trivial

end Timeline

/-! ### Delays and statements -/

/-- A statement does not have to wait when it starts. -/
theorem Strand.not_waiting {earlier : List (Moment Rat)} (h : c.Strand (earlier ++ m :: after) q q')
    (hearlier : earlier ≠ []) (hm : StatementBehind earlier m) :
    m.session.sequencer.isWaiting = false := by
  obtain ⟨front, previous, rfl⟩ := (List.eq_nil_or_concat earlier).resolve_left hearlier
  obtain ⟨line, hline, hentered⟩ := hm
  rw [List.concat_eq_append, List.append_assoc] at h
  rcases h.behind.ready m rfl line hline with hbrings | hready
  · cases hbrings with
    | line hexecute => exact absurd hexecute (hentered previous (by simp))
  · exact hready

/-- Between a line that asks for a delay and a statement behind it the time of the delay passes. -/
theorem Strand.le_totalPassed {asked : Moment Rat} (hceiling : 0 < ceiling)
    (h : c.Strand (asked :: (between ++ m :: after)) q q') (hq : q.Capped ceiling)
    (hasked : asked.Asks c amount) (hamount : 0 < amount)
    (hm : StatementBehind (asked :: between) m) : min amount ceiling ≤ totalPassed between := by
  have hfirst : c.Strand ([] ++ asked :: (between ++ m :: after)) q q' := h
  have hbetween : c.Strand ((asked :: between) ++ m :: after) q q' := h
  have hzero : m.session.sequencer.remaining ≤ 0 := by
    rw [← not_lt, ← Rat.isPositive_iff]
    exact ne_true_of_eq_false (hbetween.not_waiting (List.cons_ne_nil _ _) hm)
  obtain ⟨request, hrequest, hoccasion⟩ := hfirst.behind.brings _ (.request hasked)
  cases between with
  | nil =>
    -- the request is right behind the line, and it is no statement
    obtain ⟨line, hline, -⟩ := hm
    obtain rfl : m = request := Option.some.inj hrequest
    cases hline.symm.trans hoccasion
  | cons first between =>
    obtain rfl : first = request := Option.some.inj hrequest
    obtain ⟨x, hafter, -, hle⟩ := hbetween.le_remaining hceiling.le hq
    have hx : x.remaining = m.session.sequencer.remaining := by
      cases hafter
      rfl
    have hadded : first.added ceiling = min amount ceiling := by
      unfold Moment.added
      rw [hoccasion]
      exact if_pos hamount
    have hpassed : asked.passed = 0 := by
      obtain ⟨line, hline, -⟩ := hasked
      unfold Moment.passed
      rw [hline]
    rw [totalAdded_cons, totalAdded_cons, totalPassed_cons asked, hadded, hpassed, hx] at hle
    linarith [hq.nonneg, asked.added_nonneg hceiling.le, totalAdded_nonneg hceiling.le between]

/-- **Delays are never cut short.** Lines, hooks and ticks in any order, with the built-in commands:
at every moment at which the countdown is positive, and between calls, it is the sum of the delays
since it was last zero, each up to the ceiling, less the time that has passed since then. Between a
line that asks for a delay, entered or a statement, and any statement that starts behind it, of
whatever sequence, at least that delay passes, up to the ceiling. The request comes right behind
such a line, and a line right behind its entry. Every call ends and goes on with the timeline. -/
theorem delays_in_full (hc : c.IsBuiltin) (h : c.Timeline s origins moments) :
    (∀ before after, moments = before ++ after → 0 < (sessionAt after s).sequencer.remaining →
      SinceZero c.config.maxDelay before (sessionAt after s).sequencer.remaining) ∧
    (∀ before asked between m after amount,
      moments = before ++ asked :: (between ++ m :: after) → asked.Asks c amount → 0 < amount →
      StatementBehind (asked :: between) m → min amount c.config.maxDelay ≤ totalPassed between) ∧
    (∀ before m after op, moments = before ++ m :: after → m.Brings c op →
      ∃ m' ∈ after.head?, m'.occasion = .starts op) ∧
    ∀ call : Call, ∃ t later origins', c.Returns call.op s (.ok ()) t ∧
      c.Timeline t origins' (moments ++ later) := by
  obtain ⟨hceiling, hstrand⟩ := h.strand hc
  have hstart : (Sequencer.start c.config.maxDelay).Capped c.config.maxDelay :=
    ⟨rfl, (le_of_eq (Nat.cast_zero.symm : (0 : Rat) = _))⟩
  refine ⟨?_, ?_, ?_, fun call => ?_⟩
  · rintro before after rfl hpos
    obtain ⟨x, hafter, hx⟩ := hstrand.since_zero hceiling.le hstart
    have hat : (sessionAt after s).clock.remaining = x.remaining :=
      congrArg Sequencer.remaining hafter.clock_at
    change 0 < (sessionAt after s).clock.remaining at hpos
    change SinceZero _ _ (sessionAt after s).clock.remaining
    rw [hat] at hpos ⊢
    rcases hx with hzero | ⟨hnever, -⟩ | hsince
    · exact absurd hzero hpos.ne'
    · exact absurd hnever (lt_irrefl 0)
    · exact hsince
  · rintro before asked between m after amount rfl hasked hamount hm
    obtain ⟨x, hafter, hx, -⟩ := hstrand.le_remaining hceiling.le hstart
    exact hafter.le_totalPassed hceiling hx hasked hamount hm
  · rintro before m after op rfl hop
    exact hstrand.behind.brings op hop
  · obtain ⟨t, hr⟩ := hc.exists_call call s
    obtain ⟨later, origins', -, hlater⟩ := h.exists_after call hr
    exact ⟨t, later, origins', hr, hlater⟩

/-- A delay above the ceiling of 59 seconds, a sequence entered while it is waited for, and its
statement, which starts when they have passed. -/
theorem delays_in_full_clamped :
    let c := exact Config.standard
    ∃ s origins before asked between m after,
      c.Timeline s origins (before ++ asked :: (between ++ m :: after)) ∧ asked.Asks c 100 ∧
        StatementBehind (asked :: between) m ∧ 59 ≤ totalPassed between := by
  intro c
  have hc : c.IsBuiltin := isBuiltin_exact _
  let s := Session.remembering c.config .empty
  let task : ParkedSequence := ⟨["print x"], 0⟩
  have h : ∃ x ∈ c.perform 9 (.execute "delay 100") s,
      ∃ y ∈ c.perform 9 (.execute "exec print x") x.2, ∃ z ∈ c.perform 9 (.tick ⟨59, 0⟩) y.2,
        y.2.sequencer.parked = [task] ∧
          (y.2.advance ⟨59, 0⟩).sequencer.isWaiting = false := by
    decide +kernel
  obtain ⟨⟨_, x⟩, hx, ⟨_, y⟩, hy, ⟨_, z⟩, hz, hparked, hdue⟩ := h
  have hs : c.Timeline s [] [] := .start (Session.start_remembering rfl _)
  obtain ⟨first, origins, hfirst, hafter⟩ := hs.exists_after (.input (.line "delay 100")) ⟨9, hx⟩
  obtain ⟨second, origins', -, hafter'⟩ :=
    hafter.exists_after (.input (.line "exec print x")) ⟨9, hy⟩
  obtain ⟨third, origins'', hthird, htimeline⟩ := hafter'.exists_after (.tick ⟨59, 0⟩) ⟨9, hz⟩
  -- the line is entered by the first call, and the statement is the first thing that is due
  obtain ⟨entered, asked, rest, rfl, hasked⟩ : ∃ entered asked rest,
      first = entered :: asked :: rest ∧ asked.Asks c 100 := by
    have hnumeral : Numeral "100" := by decide
    have hasks : c.AsksFor ("delay " ++ "100") 100 :=
      hc.asksFor_numeral hnumeral (by decide +kernel)
    cases hfirst with
    | execute hline =>
      obtain ⟨rest, rfl⟩ := hline.starts
      exact ⟨_, _, rest, rfl, "delay 100", rfl, by decide +kernel, hasks⟩
  obtain ⟨ticks, m, later, rfl, hticks, hm⟩ : ∃ ticks m later, third = ticks :: m :: later ∧
      ticks.occasion = .starts (.tick ⟨59, 0⟩) ∧
      m.occasion = .starts (.dispatch "print x") := by
    cases hthird with
    | tick hresumed =>
      obtain ⟨origin, later, rfl⟩ := hresumed.starts_due hdue hparked rfl
      exact ⟨_, _, later, rfl, rfl, rfl⟩
  have hstatement : StatementBehind (asked :: (rest ++ second ++ [ticks])) m := by
    refine ⟨_, hm, fun previous hprevious => ?_⟩
    rw [← List.cons_append, List.getLast?_concat] at hprevious
    cases hprevious
    rw [hticks]
    exact nofun
  have hsplit : [] ++ entered :: asked :: rest ++ second ++ ticks :: m :: later =
      [entered] ++ asked :: (rest ++ second ++ [ticks] ++ m :: later) := by simp
  rw [hsplit] at htimeline
  obtain ⟨-, hwaited, -⟩ := delays_in_full hc htimeline
  have hpassed := hwaited _ _ _ _ _ 100 rfl hasked (by norm_num) hstatement
  have hceiling : min (100 : Rat) c.config.maxDelay = 59 := by decide +kernel
  rw [hceiling] at hpassed
  exact ⟨z, origins'', [entered], asked, _, m, later, htimeline, hasked, hstatement, hpassed⟩

end Console

end CommandConsole

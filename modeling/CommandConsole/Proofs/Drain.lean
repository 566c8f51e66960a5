import Mathlib.Data.Multiset.DershowitzManna
import Mathlib.Data.Nat.Find
import Mathlib.Order.WellFounded
import CommandConsole.Proofs.Termination

/-!
# CommandConsole.Proofs.Drain — pending work comes to an end

A statement that is resumed can add any number of statements, ask for new delays and give aliases
new texts of any length, so the queue and its texts can grow. But all that it adds can unfold less
far than the statement itself. So the queue, as a multiset of what its statements can still unfold,
becomes smaller with every statement that is taken, and this cannot go on for ever.

* `Console.amount`: a list of work as a multiset.
* `Console.Unfolds.amount_lt`, `Console.Resumes.amount_lt`: it becomes smaller.
* `Elapsed.Covers`, `Console.Turn`: what the host does while it waits, and with how much time.
* `Console.pending_drains`: after finitely many turns nothing is parked.
-/

namespace CommandConsole

variable {τ : Type} [Seconds τ]

namespace Console

variable {c : Console τ} {s t u : Session τ} {work rest trace : List Entry} {outcome : Outcome}
  {events : List Event}

/-! ### The measure -/

/-- How far the statements in a list of work can still unfold, all taken together. -/
def amount (c : Console τ) (work : List Entry) : Multiset (Nat ×ₗ Nat) :=
  Multiset.ofList (work.map c.budget)

omit [Seconds τ] in
theorem amount_append (front behind : List Entry) :
    c.amount (front ++ behind) = c.amount front + c.amount behind := by
  unfold amount
  rw [List.map_append, Multiset.coe_add]

omit [Seconds τ] in
/-- What takes the place of an entry is less if it can unfold less far, and if it is nothing. -/
theorem amount_lt_of_budget_lt {e : Entry} {front : List Entry}
    (h : ∀ e' ∈ front, c.budget e' < c.budget e) (behind : List Entry) :
    (c.amount (front ++ behind)).IsDershowitzMannaLT (c.amount (e :: behind)) := by
  refine ⟨c.amount behind, c.amount front, {c.budget e}, Multiset.singleton_ne_zero _, ?_, ?_, ?_⟩
  · rw [amount_append, add_comm]
  · show c.amount ([e] ++ behind) = _
    rw [amount_append, add_comm]
    rfl
  · intro budget hm
    obtain ⟨e', he', rfl⟩ := List.mem_map.mp (Multiset.mem_coe.mp hm)
    exact ⟨c.budget e, Multiset.mem_singleton_self _, h e' he'⟩

omit [Seconds τ] in
/-- There is less work once some of it is dropped. -/
theorem amount_lt_of_append {front : List Entry} (h : front ≠ []) (behind : List Entry) :
    (c.amount behind).IsDershowitzMannaLT (c.amount (front ++ behind)) := by
  refine ⟨c.amount behind, 0, c.amount front, ?_, (add_zero _).symm, ?_, by simp⟩
  · exact fun hzero => h (List.map_eq_nil_iff.mp (Multiset.coe_eq_zero _ |>.mp hzero))
  · rw [amount_append, add_comm]

/-! ### Less work -/

/-- **Runs**: a run that takes an entry leaves less work. -/
theorem Unfolds.amount_lt (hc : c.IsBuiltin) (h : c.Unfolds work s trace rest t) :
    rest = work ∧ t = s ∨ (c.amount rest).IsDershowitzMannaLT (c.amount work) := by
  induction h with
  | stop => exact Or.inl ⟨rfl, rfl⟩
  | @step _ work _ _ _ _ _ _ _ hs _ ih =>
    have first := amount_lt_of_budget_lt (budget_lt_of_step hc hs) work
    rcases ih with ⟨rfl, -⟩ | hlater
    · exact Or.inr first
    · exact Or.inr (hlater.trans first)

/-- A sequence that is resumed leaves less work, whatever is parked behind it. -/
theorem Ends.amount_lt (hc : c.IsBuiltin) {q : ParkedSequence}
    (h : c.Ends q.entries (s.resuming q) trace outcome t) (hw : s.sequencer.isWaiting = false)
    (hq : q.statements ≠ []) (behind : List ParkedSequence) :
    (c.amount ((t.reportFailure outcome).putBack behind s.depth).work).IsDershowitzMannaLT
      (c.amount (worklist (q :: behind))) := by
  have hentries : q.entries ≠ [] := fun hnil => hq (List.map_eq_nil_iff.mp hnil)
  rw [worklist_cons]
  rcases h.ok_or with rfl | ⟨name, rfl⟩
  · obtain ⟨queue, x, hrun, hqueue, -, hparked, hx⟩ := h.exists_putBack hc s.depth
    have hwork : (t.putBack behind s.depth).work = worklist queue ++ worklist behind :=
      (congrArg worklist hparked).trans (worklist_append queue behind)
    show (c.amount (t.putBack behind s.depth).work).IsDershowitzMannaLT _
    rw [hwork]
    rcases (hrun.append (worklist behind)).amount_lt hc with ⟨hrest, rfl⟩ | hlt
    · -- a run that takes nothing has nothing to take, as sequences do not wait
      have hnil : queue = [] := by
        refine hqueue.resolve_right fun hwait => ?_
        have hnow : (t.putBack behind s.depth).bare.sequencer.isWaiting = true := hwait
        rw [hx] at hnow
        have hthen : s.sequencer.isWaiting = true := hnow
        rw [hw] at hthen
        cases hthen
      rw [hnil] at hrest
      exact absurd (List.append_cancel_right hrest).symm hentries
    · exact hlt
  · let e : ConsoleError := .recursionLimit name c.config.maxAliasDepth
    have hwork : ((t.report e).putBack behind s.depth).work = worklist behind :=
      congrArg worklist (h.parked_putBack hc s.depth)
    show (c.amount ((t.report e).putBack behind s.depth).work).IsDershowitzMannaLT _
    rw [hwork]
    exact amount_lt_of_append hentries (worklist behind)

/-- What a resumed sequence leaves in the queue has statements, however it ends. -/
theorem Ends.nonempty_resumed (hc : c.IsBuiltin) {q : ParkedSequence} {behind : List ParkedSequence}
    (h : c.Ends q.entries (s.resuming q) trace outcome t)
    (hb : ∀ r ∈ behind, r.statements ≠ []) :
    ∀ r ∈ ((t.reportFailure outcome).putBack behind s.depth).sequencer.parked,
      r.statements ≠ [] := by
  rcases h.ok_or with rfl | ⟨name, rfl⟩
  · exact h.nonempty_putBack hc s.depth hb
  · let e : ConsoleError := .recursionLimit name c.config.maxAliasDepth
    have hparked : ((t.report e).putBack behind s.depth).sequencer.parked = behind :=
      h.parked_putBack hc s.depth
    show ∀ r ∈ ((t.report e).putBack behind s.depth).sequencer.parked, r.statements ≠ []
    rwa [hparked]

/-- Once a sequence has been resumed there is less work, and the rest of the tick adds none. -/
theorem Ends.amount_lt_of_resumes (hc : c.IsBuiltin) {q : ParkedSequence}
    {behind : List ParkedSequence} (h : c.Ends q.entries (s.resuming q) trace outcome t)
    (hw : s.sequencer.isWaiting = false) (hp : s.sequencer.parked = q :: behind)
    (hs : ∀ r ∈ s.sequencer.parked, r.statements ≠ []) {settled : Prop}
    (later : (∀ r ∈ ((t.reportFailure outcome).putBack behind s.depth).sequencer.parked,
        r.statements ≠ []) →
      settled ∧ u = (t.reportFailure outcome).putBack behind s.depth ∨
        (c.amount u.work).IsDershowitzMannaLT
          (c.amount ((t.reportFailure outcome).putBack behind s.depth).work)) :
    (c.amount u.work).IsDershowitzMannaLT (c.amount s.work) := by
  rw [hp] at hs
  obtain ⟨hq, hbehind⟩ := List.forall_mem_cons.mp hs
  have first := h.amount_lt hc hw hq behind
  rw [← hp] at first
  rcases later (h.nonempty_resumed hc hbehind) with ⟨-, rfl⟩ | hlater
  · exact first
  · exact hlater.trans first

/-- **Ticks**: unless nothing is due, there is less work after a tick. -/
theorem Resumes.amount_lt (hc : c.IsBuiltin) (h : c.Resumes s events u)
    (hs : ∀ q ∈ s.sequencer.parked, q.statements ≠ []) :
    (s.sequencer.parked = [] ∨ s.sequencer.isWaiting = true) ∧ u = s ∨
      (c.amount u.work).IsDershowitzMannaLT (c.amount s.work) := by
  induction h with
  | settled hsettled => exact Or.inl ⟨hsettled, rfl⟩
  | ran hw hp _ hends _ ih => exact Or.inr (hends.amount_lt_of_resumes hc hw hp hs ih)
  | aborted hw hp _ hends _ ih => exact Or.inr (hends.amount_lt_of_resumes hc hw hp hs ih)

/-! ### The host waits -/

/-- The time that passes makes up for what is left of the delay. -/
def CoveredBy (s : Session τ) (e : Elapsed) : Prop := (s.advance e).sequencer.isWaiting = false

/-- One turn of a host that waits: it lets time pass, and it may then take the output. -/
inductive Turn (c : Console τ) (e : Elapsed) (s : Session τ) : Session τ → Prop
  | tick {t : Session τ} : c.Returns (.tick e) s (.ok ()) t → Turn c e s t
  | tickAndDrain {t u : Session τ} : c.Returns (.tick e) s (.ok ()) t →
      c.Returns (.primitive .drain) t (.ok ()) u → Turn c e s u

/-- The host only lets time pass while anything is parked, and each time enough of it. -/
def Waits (c : Console τ) (clock : Nat → Elapsed) (run : Nat → Session τ) : Prop :=
  ∀ n, (run n).sequencer.hasPending = true →
    CoveredBy (run n) (clock n) ∧ c.Turn (clock n) (run n) (run (n + 1))

theorem Turn.reachable (hs : c.Reachable s) {e : Elapsed} (h : c.Turn e s t) : c.Reachable t := by
  cases h with
  | tick hr => exact hs.after hr
  | tickAndDrain hr hd => exact (hs.after hr).after hd

/-- A turn leaves the work that its tick leaves. -/
theorem Turn.exists_work_eq {e : Elapsed} (h : c.Turn e s t) :
    ∃ u, c.Returns (.tick e) s (.ok ()) u ∧ t.work = u.work := by
  cases h with
  | tick hr => exact ⟨t, hr, rfl⟩
  | tickAndDrain hr hd =>
    obtain ⟨-, rfl⟩ := Prod.ext_iff.mp (returns_primitive.mp hd)
    exact ⟨_, hr, rfl⟩

/-- No parked sequence is ever without statements. -/
theorem Reachable.nonempty (h : c.Reachable s) : ∀ q ∈ s.sequencer.parked, q.statements ≠ [] := by
  induction h with
  | start hstart =>
    obtain ⟨-, hq, -⟩ := Session.of_start hstart
    rw [hq]
    exact List.forall_mem_nil _
  | after _ hr ih => exact hr.nonempty ih

/-- **Turns**: as long as anything is parked, a turn leaves less work. -/
theorem Turn.amount_lt (hc : c.IsBuiltin) (hs : c.Reachable s) {e : Elapsed}
    (hp : s.sequencer.hasPending = true) (he : CoveredBy s e) (h : c.Turn e s t) :
    (c.amount t.work).IsDershowitzMannaLT (c.amount s.work) := by
  obtain ⟨u, hr, hwork⟩ := h.exists_work_eq
  obtain ⟨-, events, hu⟩ := hc.resumes_of_tick hr
  rw [hwork]
  rcases hu.amount_lt hc hs.nonempty with ⟨hnil | hwait, -⟩ | hlt
  · have hnone : s.sequencer.parked = [] := hnil
    simp [Sequencer.hasPending, hnone] at hp
  · unfold CoveredBy at he
    rw [he] at hwait
    cases hwait
  · exact hlt

/-- **Waiting ends**: a host that waits has to wait for finitely many turns. -/
theorem Waits.exists_settled (hc : c.IsBuiltin) {clock : Nat → Elapsed} {run : Nat → Session τ}
    (h : c.Waits clock run) (hs : c.Reachable (run 0)) :
    ∃ n, (run n).sequencer.hasPending = false ∧
      (∀ m < n, (run m).sequencer.hasPending = true) ∧ c.Reachable (run n) := by
  have reached (n : Nat) (hn : ∀ m < n, (run m).sequencer.hasPending = true) :
      c.Reachable (run n) := by
    induction n with
    | zero => exact hs
    | succ n ih =>
      have hbefore := ih fun m hm => hn m (Nat.lt_succ_of_lt hm)
      exact (h n (hn n (Nat.lt_succ_self n))).2.reachable hbefore
  have settles : ∃ n, (run n).sequencer.hasPending = false := by
    by_contra hnever
    have pending (n : Nat) : (run n).sequencer.hasPending = true := by
      by_contra hn
      exact hnever ⟨n, Bool.eq_false_of_not_eq_true hn⟩
    -- otherwise the work would become less with every turn, for ever
    have : IsWellFounded (Multiset (Nat ×ₗ Nat)) Multiset.IsDershowitzMannaLT :=
      ⟨Multiset.wellFounded_isDershowitzMannaLT⟩
    obtain ⟨n, hn⟩ := WellFounded.not_rel_apply_succ (r := Multiset.IsDershowitzMannaLT)
      fun n => c.amount (run n).work
    obtain ⟨hcovered, hturn⟩ := h n (pending n)
    exact hn (hturn.amount_lt hc (reached n fun m _ => pending m) (pending n) hcovered)
  have before (m : Nat) (hm : m < Nat.find settles) : (run m).sequencer.hasPending = true :=
    Bool.eq_true_of_not_eq_false (Nat.find_min settles hm)
  exact ⟨Nat.find settles, Nat.find_spec settles, before, reached _ before⟩

/-- **Pending work drains.** From every state that a console with the built-in commands can reach,
whatever is parked and whatever the aliases are or become: a host that only lets time pass while
anything is parked, and each time at least as much as is left of the delay, comes to a state where
nothing is parked after finitely many turns. The same holds once more when it has then fired the
shutdown hook and taken the output. Every turn ends itself. -/
theorem pending_drains (hc : c.IsBuiltin) {clock : Nat → Elapsed} {run : Nat → Session τ}
    (hs : c.Reachable (run 0)) (h : c.Waits clock run) :
    (∀ e x, ∃ y, c.Turn e x y) ∧
    ∃ n, (run n).sequencer.hasPending = false ∧ (∀ m < n, (run m).sequencer.hasPending = true) ∧
      ∃ t u, c.Returns (.fire .onShutdown) (run n) (.ok ()) t ∧
        c.Returns (.primitive .drain) t (.ok ()) u ∧
        ∀ clock' run', run' 0 = u → c.Waits clock' run' → ∃ n',
          (run' n').sequencer.hasPending = false ∧
            ∀ m < n', (run' m).sequencer.hasPending = true := by
  refine ⟨fun e x => ?_, ?_⟩
  · obtain ⟨-, y, hr, -⟩ := hc.exists_tick e x
    exact ⟨y, .tick hr⟩
  · obtain ⟨n, hn, before, hreached⟩ := h.exists_settled hc hs
    obtain ⟨outcome, t, hfire⟩ := hc.exists_returns (.fire .onShutdown) (run n)
    obtain ⟨rfl, -⟩ := returns_fire.mp hfire
    have hdrain : c.Returns (.primitive .drain) t (.ok ()) t.drain.2 := returns_primitive.mpr rfl
    refine ⟨n, hn, before, t, t.drain.2, hfire, hdrain, fun clock' run' h0 h' => ?_⟩
    have hagain : c.Reachable (run' 0) := h0 ▸ (hreached.after hfire).after hdrain
    obtain ⟨n', hn', before', -⟩ := h'.exists_settled hc hagain
    exact ⟨n', hn', before'⟩

/-- With exact time, the time that passes makes up for the delay if it is at least as much. -/
theorem coveredBy_iff {s : Session Rat} {e : Elapsed} :
    CoveredBy s e ↔ s.sequencer.remaining ≤ e.toRat := Rat.isPositive_countDown_eq_false

/-- An alias that stands for itself after a second, at a limit of two: a host that waits a second at
a time has to do so twice, and can then fire the shutdown hook. -/
theorem pending_drains_cyclic :
    let c := exact { Config.standard with maxAliasDepth := 2 }
    let s := Session.remembering c.config (TextMap.empty.insert "a" "delay 1; a")
    ∃ run : Nat → Session Rat, c.Returns (.execute "a") s (.ok ()) (run 0) ∧
      c.Reachable (run 0) ∧ c.Waits (fun _ => ⟨1, 0⟩) run ∧
      ((run 0).sequencer.hasPending = true ∧ (run 1).sequencer.hasPending = true) ∧
      ∃ n t, 1 < n ∧ (run n).sequencer.hasPending = false ∧
        c.Returns (.fire .onShutdown) (run n) (.ok ()) t := by
  intro c s
  have h : ∃ x ∈ c.perform 9 (.execute "a") s, ∃ y ∈ c.perform 9 (.tick ⟨1, 0⟩) x.2,
      ∃ z ∈ c.perform 9 (.tick ⟨1, 0⟩) y.2, (x.1 = .ok () ∧ y.1 = .ok () ∧ z.1 = .ok ()) ∧
        (x.2.sequencer.hasPending = true ∧ y.2.sequencer.hasPending = true ∧
          z.2.sequencer.hasPending = false) ∧
        x.2.sequencer.remaining ≤ Elapsed.toRat ⟨1, 0⟩ ∧
        y.2.sequencer.remaining ≤ Elapsed.toRat ⟨1, 0⟩ := by
    decide +kernel
  obtain ⟨⟨_, x⟩, hx, ⟨_, y⟩, hy, ⟨_, z⟩, hz, ⟨rfl, rfl, rfl⟩, ⟨hpx, hpy, hpz⟩, hcx, hcy⟩ := h
  let run : Nat → Session Rat
    | 0 => x
    | 1 => y
    | _ => z
  have entered : c.Returns (.execute "a") s (.ok ()) (run 0) := ⟨9, hx⟩
  have hs : c.Reachable (run 0) := (reachable_remembering rfl _).after entered
  have waits : c.Waits (fun _ => ⟨1, 0⟩) run := by
    intro n hn
    match n with
    | 0 => exact ⟨coveredBy_iff.mpr hcx, .tick ⟨9, hy⟩⟩
    | 1 => exact ⟨coveredBy_iff.mpr hcy, .tick ⟨9, hz⟩⟩
    | n + 2 =>
      rw [show (run (n + 2)).sequencer.hasPending = false from hpz] at hn
      cases hn
  obtain ⟨-, n, hn, -, t, -, hfire, -⟩ := pending_drains (isBuiltin_exact _) hs waits
  refine ⟨run, entered, hs, waits, ⟨hpx, hpy⟩, n, t, ?_, hn, hfire⟩
  match n with
  | 0 => exact absurd hpx (by rw [show x.sequencer.hasPending = false from hn]; decide)
  | 1 => exact absurd hpy (by rw [show y.sequencer.hasPending = false from hn]; decide)
  | n + 2 => omega

end Console

end CommandConsole

import CommandConsole.Proofs.Course
import CommandConsole.Proofs.Reachable

/-!
# CommandConsole.Proofs.Overtaking — nothing overtakes what is parked

Between operations sequences are parked only while they have to wait, whatever handlers do. Time
breaks this for a moment: the countdown can run out while sequences are parked, and the others are
held back while one of them runs. But what is resumed begins with an empty queue, and a tick stops
only when nothing is parked or sequences have to wait again. So statements that are entered while
anything is parked go to the end of the queue.

* `Sequencer.Settled`: nothing is parked, or sequences have to wait.
* `Console.Course.settles`: whatever is run keeps it so, and a tick always ends so.
* `Session.queue`: statements go to the end of the queue.
* `Console.no_overtaking`: what is entered while anything is parked is queued behind it.
-/

namespace CommandConsole

variable {τ : Type} [Seconds τ]

/-- Sequences are parked only while they have to wait. -/
def Sequencer.Settled (q : Sequencer τ) : Prop := q.parked = [] ∨ q.isWaiting = true

/-- Puts statements, if there are any, at the end of the queue. -/
def Session.queue (s : Session τ) : List String → Session τ
  | [] => s
  | statement :: statements => s.park (statement :: statements)

theorem Session.parked_queue (s : Session τ) (statements : List String) :
    (s.queue statements).sequencer.parked =
      s.sequencer.parked ++ if statements = [] then [] else [⟨statements, s.depth⟩] := by
  cases statements with
  | nil => exact (List.append_nil _).symm
  | cons statement statements => rfl

namespace Console

variable {c : Console τ} {s t : Session τ} {outcome : Outcome}

/-! ### What is parked waits -/

section Settled

variable [LawfulSeconds τ]

/-- **Steps**: whatever is run leaves a queue that is empty or waits. Only a tick may begin with any
other: it goes on until the queue is so. -/
theorem Course.settles {job : Job τ} {path : Path} {origins origins' : List Path}
    {moments : List (Moment τ)}
    (h : c.Course job path s origins moments outcome t origins') (hc : s.sequencer.Counts)
    (hs : job ≠ .due → s.sequencer.Settled) : t.sequencer.Counts ∧ t.sequencer.Settled := by
  induction h with
  | @primitive p _ s t _ _ hp =>
    have hd := p.delays_apply c.config s
    have hparked := (p.uniform_apply c.config).parked_eq s
    rw [hp] at hd hparked
    obtain ⟨ht, hw⟩ := hd.follows hc
    refine ⟨ht, ?_⟩
    rcases hw with heq | hw
    · rw [heq]
      exact hs nofun
    · exact Or.inr hw
  | blank | refused | unresolved | help | unbound | ignored | nil | done | fail =>
    exact ⟨hc, hs nofun⟩
  | expanded _ _ _ _ _ ih | invoked _ _ _ _ _ ih | runSequence _ ih | abort _ _ _ ih | look _ ih =>
    exact ih hc fun _ => hs nofun
  | execute _ ih | fired _ _ ih | submitted _ _ ih =>
    rw [Session.sequencer_reportFailure]
    exact ih hc fun _ => hs nofun
  | tick _ ih =>
    exact ih ⟨LawfulSeconds.isCount_countDown _ hc.1, hc.2⟩ fun hdue => absurd rfl hdue
  | park hw => exact ⟨hc, Or.inr hw⟩
  | goesOn _ _ _ _ ih ih' =>
    have ht := ih hc fun _ => hs nofun
    rw [← Session.sequencer_reportFailure] at ht
    exact ih' ht.1 fun _ => ht.2
  | perform _ _ ih ih' =>
    have ht := ih hc fun _ => hs nofun
    exact ih' ht.1 fun _ => ht.2
  | settled hsettled => exact ⟨hc, hsettled⟩
  | resumed _ _ _ _ ih ih' =>
    -- what is resumed begins with an empty queue; the others come back behind what it has parked
    have ht := ih hc fun _ => Or.inl rfl
    rw [← Session.sequencer_reportFailure] at ht
    exact ih' ht.1 fun hdue => absurd rfl hdue

/-- So does every operation. -/
theorem Returns.settled {op : Op τ} (h : c.Returns op s outcome t) (hc : s.sequencer.Counts)
    (hs : s.sequencer.Settled) : t.sequencer.Counts ∧ t.sequencer.Settled := by
  obtain ⟨origins, moments, origins', hcourse⟩ := h.exists_course_nil
  exact hcourse.settles hc fun _ => hs

/-- **Rest**: between operations the queue is empty or waits, whatever the handlers do. -/
theorem Reachable.settled (h : c.Reachable s) : s.sequencer.Counts ∧ s.sequencer.Settled := by
  induction h with
  | start hstart =>
    obtain ⟨hcheck, hq, -⟩ := Session.of_start hstart
    rw [hq]
    exact ⟨⟨Or.inl rfl, (Config.of_check hcheck).2⟩, Or.inl rfl⟩
  | after _ hr ih => exact hr.settled ih.1 ih.2

end Settled

theorem Reachable.depth_eq_zero (h : c.Reachable s) :
    0 < c.config.maxAliasDepth ∧ s.depth = 0 := by
  induction h with
  | start hstart =>
    obtain ⟨hcheck, -, hd⟩ := Session.of_start hstart
    exact ⟨(Config.of_check hcheck).1, hd⟩
  | after _ hr ih => exact ⟨ih.1, hr.depth_eq.trans ih.2⟩

/-! ### What is entered while sequences wait -/

theorem Runs.of_waiting (hw : s.sequencer.isWaiting = true) (statements : List String) :
    c.Runs statements s (.ok ()) (s.queue statements) := by
  cases statements with
  | nil => exact .nil s
  | cons statement statements => exact .park hw statement statements

/-- The session after an alias whose statements have been queued. -/
def queuedAlias (s : Session τ) (name : String) (statements : List String) : Session τ :=
  { (s.expanding name statements.length).queue statements with depth := s.depth }

/-- A line that is an alias runs its statements one level deeper, unless they nest too deep. -/
theorem Returns.of_alias {text : String} {statements : List String} {u : Session τ}
    (hline : Text.trim text ≠ "") (hs : s.aliases.expand (Text.trim text) = some statements)
    (hd : s.depth < c.config.maxAliasDepth)
    (hr : c.Runs statements (s.expanding (Text.trim text) statements.length) outcome u) :
    c.Returns (.dispatch text) s outcome { u with depth := u.depth - 1 } := by
  obtain ⟨fuel, hf⟩ := hr
  unfold Session.expanding expansionNote at hf
  refine ⟨fuel + 1, ?_⟩
  unfold perform dispatch
  dsimp only
  rw [if_neg hline, hs]
  dsimp only
  unfold expandAlias
  dsimp only
  rw [if_neg (Nat.not_le.mpr hd), hf]

theorem Returns.of_waiting_alias (hw : s.sequencer.isWaiting = true)
    (hd : s.depth < c.config.maxAliasDepth) {text : String} {statements : List String}
    (hline : Text.trim text ≠ "") (hs : s.aliases.expand (Text.trim text) = some statements) :
    c.Returns (.dispatch text) s (.ok ()) (queuedAlias s (Text.trim text) statements) := by
  have hwaits : (s.expanding (Text.trim text) statements.length).sequencer.isWaiting = true := hw
  have hback : ((s.expanding (Text.trim text) statements.length).queue statements).depth - 1 =
      s.depth := by
    cases statements <;> exact Nat.add_sub_cancel s.depth 1
  have h := Returns.of_alias hline hs hd (.of_waiting hwaits statements)
  rwa [hback] at h

theorem Returns.of_waiting_hook (hw : s.sequencer.isWaiting = true) {hook : LifecycleHook}
    {command : String} (hh : s.hooks.command hook = some command) : c.Returns (.fire hook) s
      (.ok ()) ((firing hook command s).queue (Text.statements command)) := by
  have hx : c.Runs (Text.statements command) (firing hook command s) (.ok ())
      ((firing hook command s).queue (Text.statements command)) :=
    .of_waiting (show (firing hook command s).sequencer.isWaiting = true from hw) _
  refine returns_fire.mpr ⟨rfl, ?_⟩
  rw [hh]
  exact ⟨.ok (), _, hx, rfl⟩

/-- **No overtaking.** In every state between operations, whatever handlers do in them: if anything
is parked, the console waits, so nothing is parked once the countdown has run out. While anything is
parked, an alias, a sequence or a hook only puts its statements at the end of the queue, and runs
none of them; with the built-in commands the same goes for every line that runs a sequence. -/
theorem no_overtaking [LawfulSeconds τ] (h : c.Reachable s) :
    (s.sequencer.hasPending = true → s.sequencer.isWaiting = true) ∧
      (s.sequencer.isWaiting = false → s.sequencer.parked = []) ∧
      (s.sequencer.hasPending = true →
        (∀ text statements, Text.trim text ≠ "" →
          s.aliases.expand (Text.trim text) = some statements →
          ∀ op ∈ [Op.dispatch text, .execute text], ∀ outcome t, c.Returns op s outcome t ↔
            outcome = .ok () ∧ t = queuedAlias s (Text.trim text) statements) ∧
        (∀ text outcome t, c.Returns (.runSequence text) s outcome t ↔
          outcome = .ok () ∧ t = s.queue (Text.statements text)) ∧
        (∀ hook command, s.hooks.command hook = some command → ∀ outcome t,
          c.Returns (.fire hook) s outcome t ↔
            outcome = .ok () ∧ t = (firing hook command s).queue (Text.statements command)) ∧
        (c.IsBuiltin → ∀ text statements u, c.request text s = (.sequence statements, u) →
          ∀ op ∈ [Op.dispatch text, .execute text], ∀ outcome t, c.Returns op s outcome t ↔
            outcome = .ok () ∧ t = u.queue statements)) := by
  obtain ⟨hcounts, hsettled⟩ := h.settled
  have hwait (hp : s.sequencer.hasPending = true) : s.sequencer.isWaiting = true := by
    refine hsettled.resolve_left fun hnil => ?_
    rw [Sequencer.hasPending, hnil] at hp
    cases hp
  refine ⟨hwait, fun hw => hsettled.resolve_right (by simp [hw]), fun hp => ⟨?_, ?_, ?_, ?_⟩⟩
  · intro text statements hline hs
    obtain ⟨hlimit, hdepth⟩ := h.depth_eq_zero
    exact (Returns.of_waiting_alias (hwait hp) (hdepth ▸ hlimit) hline hs).entered_iff
  · intro text
    exact (returns_runSequence.mpr (.of_waiting (hwait hp) _)).iff_of_returns
  · intro hook command hh
    exact (Returns.of_waiting_hook (hwait hp) hh).iff_of_returns
  · intro hc text statements u hu
    have hf := follows_of_step (step_sequence (e := ⟨text, 0⟩) hu) hcounts
    exact (Returns.of_sequence hc hu (.of_waiting (hf.isWaiting (hwait hp)) _)).entered_iff

/-- A handler parks a sequence, lets time pass so that it is resumed inside the handler, and asks
for a delay again. What is entered then is queued behind the rest of the alias. -/
theorem no_overtaking_reentrant :
    let hold : CommandDecl (Handler Rat) :=
      { name := "hold"
        description := "runs a sequence of its own"
        signatures := [Builtins.signature "hold" "" fun _ => do
          Action.doing (.requestDelay 1)
          Action.call (.runSequence "print a")
          Action.call (.tick ⟨1, 0⟩)
          Action.doing (.requestDelay 2)] }
    let c : Console Rat :=
      { config := .standard
        registry := (Registry.build (Builtins.all ++ [hold])).toOption.getD {} }
    let s := Session.remembering c.config (TextMap.empty.insert "s" "hold; print b")
    ∃ t u, c.Returns (.execute "s") s (.ok ()) t ∧ c.Reachable t ∧ t.output = [.line .info "a"] ∧
      t.sequencer.hasPending = true ∧ t.sequencer.isWaiting = true ∧
      c.Returns (.runSequence "print c") t (.ok ()) u ∧ u.output = t.output ∧
      u.sequencer.parked = [⟨["print b"], 1⟩, ⟨["print c"], 0⟩] := by
  intro hold c s
  have hs : c.Reachable s := .start (Session.start_remembering rfl _)
  have h : ∃ r ∈ c.perform 12 (.execute "s") s, r.1 = .ok () ∧ r.2.output = [.line .info "a"] ∧
      r.2.sequencer.parked = [⟨["print b"], 1⟩] := by
    decide +kernel
  obtain ⟨⟨_, t⟩, ht, rfl, hout, hp⟩ := h
  have htr : c.Reachable t := hs.after ⟨12, ht⟩
  have hpending : t.sequencer.hasPending = true := by
    rw [Sequencer.hasPending, hp]
    rfl
  obtain ⟨hwait, -, hqueued⟩ := no_overtaking htr
  obtain ⟨-, hsequence, -, -⟩ := hqueued hpending
  have hstatements : Text.statements "print c" = ["print c"] := by decide +kernel
  refine ⟨t, _, ⟨12, ht⟩, htr, hout, hpending, hwait hpending,
    (hsequence "print c" _ _).mpr ⟨rfl, rfl⟩, ?_, ?_⟩
  · rw [hstatements]
    rfl
  · rw [Session.parked_queue, hp, htr.depth_eq_zero.2, hstatements]
    rfl

end Console

end CommandConsole

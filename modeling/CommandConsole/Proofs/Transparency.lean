import CommandConsole.Proofs.Refinement

/-!
# CommandConsole.Proofs.Transparency — delays change nothing but when things happen

A console in which no delay ever starts runs everything at once. A console with delays, given time
until nothing is parked, comes to the same output, the same saves and the same state: what it parks
at several levels is taken up in the order in which the other one runs it.

* `Seconds.stopped`: time in which no delay starts.
* `Session.Alike`: sessions that differ in their countdown and surroundings only.
* `Console.Unfolds.alike`: runs of work are the same with and without delays.
* `Console.delay_transparent`: an input comes to the same with and without delays.
-/

namespace CommandConsole

variable {τ α : Type}

/-- Time in which a countdown never starts: nothing is added to it. -/
@[reducible] def Seconds.stopped (τ : Type) [Seconds τ] : Seconds τ :=
  { (inferInstance : Seconds τ) with add := fun t _ => t }

/-- The sessions differ in the countdown and in what surrounds them only. -/
def Session.Alike (s s' : Session τ) : Prop :=
  ∃ q f, s.sequencer.ceiling = q.ceiling ∧ s' = s.bare.under q f

/-- The second step does to sessions what the first does to sessions alike. -/
def Mirrors (step step' : Session τ → α × Session τ) : Prop :=
  ∀ s s', Session.Alike s s' → (step' s').1 = (step s).1 ∧ Session.Alike (step s).2 (step' s').2

namespace Session.Alike

variable {s s' : Session τ}

theorem refl (s : Session τ) : Alike s s := ⟨s.sequencer, s.frame, rfl, rfl⟩

theorem under (s : Session τ) {q q' : Sequencer τ} (h : q.ceiling = q'.ceiling) (f f' : Frame) :
    Alike (s.under q f) (s.under q' f') :=
  ⟨q', ⟨f'.parked, f'.depth, s.log ++ f'.log⟩, h, rfl⟩

theorem of_bare_eq {t t' : Session τ} (h : Alike s s') (ht : t.bare = s.bare)
    (ht' : t'.bare = s'.bare) : Alike t t' := by
  obtain ⟨q, f, hc, rfl⟩ := h
  have hceil : t.bare.sequencer.ceiling = t'.bare.sequencer.ceiling := by
    rw [ht, ht']
    exact hc
  refine ⟨t'.sequencer, t'.frame, hceil, ?_⟩
  have hown : t' = t'.bare.under t'.sequencer t'.frame := rfl
  rw [ht', ← ht] at hown
  exact hown

theorem print (h : Alike s s') (e : Emphasis) (text : String) :
    Alike (s.print e text) (s'.print e text) := by
  obtain ⟨q, f, hc, rfl⟩ := h
  exact ⟨q, f, hc, rfl⟩

theorem record (h : Alike s s') (line line' : LogLine) :
    Alike (s.record line) (s'.record line') := h.of_bare_eq rfl rfl

theorem reportFailure (h : Alike s s') (outcome : Outcome) :
    Alike (s.reportFailure outcome) (s'.reportFailure outcome) := by
  cases outcome with
  | ok _ => exact h
  | error e => exact (h.record _ _).print .error e.message

end Session.Alike

/-! ### Operations without delays -/

variable [Seconds τ]

/-- What a request to delay shows: a warning if the amount is above the ceiling. -/
def delayWarning (amount ceiling : τ) : List Output :=
  if Seconds.isPositive amount && Seconds.exceeds amount ceiling then
    let requested := Seconds.plain amount
    let applied := Seconds.plain ceiling
    [.line .warning s!"Delay of {requested} is too much, clamping it to {applied}"]
  else []

/-- A request to delay shows its warning, and does nothing else but to the countdown and the log. -/
theorem Session.requestDelay_eq (s : Session τ) (amount : τ) : s.requestDelay amount =
    { s.bare with emitted := delayWarning amount s.sequencer.ceiling ++ s.emitted }.under
      (s.requestDelay amount).sequencer (s.requestDelay amount).frame := by
  unfold requestDelay Sequencer.requestDelay delayWarning
  by_cases hp : Seconds.isPositive amount = true
  · by_cases hx : Seconds.exceeds amount s.sequencer.ceiling = true
    · simp only [hp, hx]
      rfl
    · simp only [hp, hx]
      rfl
  · simp only [hp]
    rfl

theorem Session.Alike.requestDelay {s s' : Session τ} (h : Alike s s') (amount : τ) :
    Alike (s.requestDelay amount) (@Session.requestDelay τ (Seconds.stopped τ) s' amount) := by
  obtain ⟨q, f, hq, rfl⟩ := h
  have hc := s.ceiling_requestDelay amount
  have hc' := @Session.ceiling_requestDelay τ (Seconds.stopped τ) (s.bare.under q f) amount
  have he := s.requestDelay_eq amount
  have he' := @Session.requestDelay_eq τ (Seconds.stopped τ) (s.bare.under q f) amount
  generalize s.requestDelay amount = t at hc he ⊢
  generalize @Session.requestDelay τ (Seconds.stopped τ) (s.bare.under q f) amount = t' at hc' he' ⊢
  -- the ceiling is the same, so the warning is; only the countdowns come to differ
  have shown : @delayWarning τ (Seconds.stopped τ) amount q.ceiling =
      delayWarning amount s.sequencer.ceiling := by
    rw [hq]
    rfl
  have hwarn : t' = { s.bare with
      emitted := delayWarning amount s.sequencer.ceiling ++ s.emitted }.under
        t'.sequencer t'.frame := by
    rw [← shown]
    exact he'
  rw [he, hwarn]
  exact .under _ (hc.trans (hq.trans hc'.symm)) t.frame t'.frame

theorem Session.Alike.advance {s s' : Session τ} (h : Alike s s') (e : Elapsed) :
    Alike (s.advance e) s' := by
  obtain ⟨q, f, hq, rfl⟩ := h
  exact ⟨q, f, hq, rfl⟩

/-- An operation that runs no command does the same with and without delays. -/
theorem Primitive.mirrors_apply (c : Config τ) (p : Primitive τ) :
    Mirrors (fun s => p.apply c s) fun s => @Primitive.apply τ (Seconds.stopped τ) c s p := by
  intro s s' h
  by_cases hp : ∃ amount, p = .requestDelay amount
  · obtain ⟨amount, rfl⟩ := hp
    exact ⟨rfl, h.requestDelay amount⟩
  · have other : ∀ amount, p ≠ .requestDelay amount := fun amount he => hp ⟨amount, he⟩
    have same : @Primitive.apply τ (Seconds.stopped τ) c s' p = p.apply c s' := by
      cases p with
      | requestDelay amount => exact absurd rfl (other amount)
      | _ => rfl
    obtain ⟨q, f, hq, rfl⟩ := h
    have own := apply_eq_under c p other s
    have moved := apply_under c p other s.bare q f
    dsimp only
    rw [same, moved, own]
    exact ⟨rfl, .under _ hq _ _⟩

/-! ### Work without delays -/

theorem Action.Direct.mirrors_effect {a : Action τ α} (ha : a.Direct) (c : Console τ) :
    Mirrors (a.effect c) (@Action.effect τ α (Seconds.stopped τ) c a) := by
  induction a with
  | done value => exact fun _ _ h => ⟨rfl, h⟩
  | fail e => exact fun _ _ h => ⟨rfl, h⟩
  | perform op next ih =>
    cases op with
    | primitive p =>
      intro s s' h
      obtain ⟨hout, hthen⟩ := p.mirrors_apply c.config s s' h
      dsimp only at hout hthen
      unfold effect
      rw [hout]
      exact ih _ (ha _ (p.goesOn_apply c.config s)) _ _ hthen
    | _ => exact ha.elim
  | look next ih =>
    intro s s' h
    have seen : next (c.view s') = next (c.view s) := ha.1 _ _ rfl
    unfold effect
    rw [seen]
    exact ih _ (ha.2 _) s s' h

theorem Action.Direct.mirrors_request {a : Action τ Unit} (ha : a.Direct) (c : Console τ) :
    Mirrors (a.request c) (@Action.request τ (Seconds.stopped τ) c a) := by
  intro s s' h
  obtain ⟨hout, hthen⟩ := ha.mirrors_effect c s s' h
  rw [ha.request_eq, @Action.Direct.request_eq τ (Seconds.stopped τ) a ha, hout]
  exact ⟨rfl, hthen⟩

namespace Console

variable {c : Console τ}

theorem IsBuiltin.mirrors_request (hc : c.IsBuiltin) (line : String) :
    Mirrors (c.request line) (@Console.request τ (Seconds.stopped τ) c line) := by
  intro s s' h
  have haliases : s'.aliases = s.aliases := by
    obtain ⟨q, f, -, rfl⟩ := h
    rfl
  unfold request
  rw [haliases]
  dsimp only
  split
  · exact ⟨rfl, h⟩
  · cases s.aliases.expand (Text.trim line) with
    | some statements => exact ⟨rfl, h⟩
    | none =>
      cases hr : c.registry.resolve (Text.trim line) with
      | none => exact ⟨rfl, h⟩
      | some resolution =>
        cases resolution with
        | help command => exact ⟨rfl, h.print .info command.helpText⟩
        | invoke command binding values =>
          rcases hc.handler_cases hr with hd | ⟨text, hx, -⟩
          · exact hd.mirrors_request c _ _ (h.record _ _)
          · dsimp only
            rw [hx]
            exact ⟨rfl, h.record _ _⟩

theorem IsBuiltin.mirrors_step (hc : c.IsBuiltin) (e : Entry) :
    Mirrors (c.step e) (@Console.step τ (Seconds.stopped τ) c e) := by
  intro s s' h
  obtain ⟨hout, hthen⟩ := hc.mirrors_request e.statement s s' h
  unfold step
  generalize c.request e.statement s = asked at hout hthen ⊢
  generalize @Console.request τ (Seconds.stopped τ) c e.statement s' = asked' at hout hthen ⊢
  obtain ⟨request, t⟩ := asked
  obtain ⟨request', t'⟩ := asked'
  obtain rfl : request' = request := hout
  cases request' with
  | ends outcome => exact ⟨rfl, hthen.reportFailure outcome⟩
  | sequence statements => exact ⟨rfl, hthen⟩
  | expansion name statements =>
    dsimp only
    split
    · exact ⟨rfl, hthen⟩
    · exact ⟨rfl, hthen.record _ _⟩

variable {s t u s' t' b z : Session τ} {work rest trace : List Entry} {i : Input}
  {events : List Event} {q : ParkedSequence} {outcome : Outcome}

/-- Where nothing is added to the countdown, a step leaves it alone. -/
theorem sequencer_eq_of_step {e : Entry} {progress : Progress} (h : c.step e s = (progress, t))
    (hadd : ∀ a b : τ, Seconds.add a b = a) : t.sequencer = s.sequencer := by
  refine step_keeps (Q := (· = s.sequencer)) ?_ h rfl
  rintro q q' (rfl | ⟨added, -, rfl⟩) hq
  · exact hq
  · rw [hadd]
    exact hq

/-- A run of the console in which no delay starts. -/
def UnfoldsAtOnce (c : Console τ) :
    List Entry → Session τ → List Entry → List Entry → Session τ → Prop :=
  @Unfolds τ (Seconds.stopped τ) c

theorem sequencer_eq_of_stopped_step {e : Entry} {progress : Progress}
    (h : @Console.step τ (Seconds.stopped τ) c e s = (progress, t)) : t.sequencer = s.sequencer :=
  @sequencer_eq_of_step τ (Seconds.stopped τ) c s t e progress h fun _ _ => rfl

namespace UnfoldsAtOnce

theorem stop (work : List Entry) (s : Session τ) : c.UnfoldsAtOnce work s [] work s :=
  @Unfolds.stop τ (Seconds.stopped τ) c work s

theorem step {e : Entry} {front : List Entry} (hw : s.sequencer.isWaiting = false)
    (hs : @Console.step τ (Seconds.stopped τ) c e s = (.onto front, t))
    (h : c.UnfoldsAtOnce (front ++ work) t trace rest u) :
    c.UnfoldsAtOnce (e :: work) s (e :: trace) rest u :=
  @Unfolds.step τ (Seconds.stopped τ) c e work front trace rest s t u hw hs h

theorem sequencer_eq (h : c.UnfoldsAtOnce work s trace rest t) : t.sequencer = s.sequencer :=
  @Unfolds.keeps τ (Seconds.stopped τ) c work rest trace s t (fun x => x.sequencer = s.sequencer) h
    (fun _ hs hx => (sequencer_eq_of_stopped_step hs).trans hx) rfl

/-- A run that leaves nothing goes on from whatever a run comes to. -/
theorem rest_of_done (h : c.UnfoldsAtOnce work s trace rest t) {trace' behind : List Entry}
    (hz : c.UnfoldsAtOnce (work ++ behind) s trace' [] z) :
    ∃ more, c.UnfoldsAtOnce (rest ++ behind) t more [] z := by
  have hlong := @Unfolds.append τ (Seconds.stopped τ) c work rest trace s t h behind
  obtain ⟨more, -, hmore⟩ := @Unfolds.rest_of_halts τ (Seconds.stopped τ) c _ _ _ _ _ _ hlong
    trace' [] hz (Or.inl (Or.inl rfl))
  exact ⟨more, hmore⟩

end UnfoldsAtOnce

/-- **Work**: what runs with delays runs without them, and to the same effect. -/
theorem Unfolds.alike (hc : c.IsBuiltin) (h : c.Unfolds work s trace rest t)
    (ha : Session.Alike s s') (hw : s'.sequencer.isWaiting = false) :
    ∃ t', c.UnfoldsAtOnce work s' trace rest t' ∧ Session.Alike t t' ∧
      t'.sequencer.isWaiting = false := by
  induction h generalizing s' with
  | stop => exact ⟨s', .stop _ _, ha, hw⟩
  | @step e _ _ _ _ s t _ _ hs _ ih =>
    -- the session without delays goes on not waiting, whatever the step asks for
    obtain ⟨hout, hthen⟩ := hc.mirrors_step e s s' ha
    rw [hs] at hout hthen
    cases hx : @Console.step τ (Seconds.stopped τ) c e s' with
    | mk progress x' =>
      rw [hx] at hout hthen
      obtain rfl : progress = .onto _ := hout
      have hwx : x'.sequencer.isWaiting = false := by
        rw [sequencer_eq_of_stopped_step hx]
        exact hw
      obtain ⟨t', hrun, ht'⟩ := ih hthen hwx
      exact ⟨t', .step hw hx hrun, ht'⟩

/-- If everything can be run without delays, no alias nests too deep with them. -/
theorem Refused.elim_alike (hc : c.IsBuiltin) {name : String} (hr : c.Refused rest t name)
    (ha : Session.Alike t b) (hw : b.sequencer.isWaiting = false) {behind : List Entry}
    (hb : c.UnfoldsAtOnce (rest ++ behind) b trace [] z) : False := by
  obtain ⟨-, e, later, rfl, hs⟩ := hr
  have htoo : (@Console.step τ (Seconds.stopped τ) c e b).1 = .tooDeep name := by
    rw [(hc.mirrors_step e t b ha).1]
    exact hs
  have hhalts : @Halts τ (Seconds.stopped τ) c (e :: later ++ behind) b :=
    Or.inr ⟨name, hw, e, later ++ behind, rfl, htoo⟩
  obtain ⟨-, hnil, -⟩ := @Unfolds.of_halts τ (Seconds.stopped τ) c _ _ _ _ _ hb hhalts
  cases hnil

/-- While time resumes what is parked, what is left to run without delays stays what is parked. -/
theorem Resumes.alike (hc : c.IsBuiltin) (h : c.Resumes s events u) (ha : Session.Alike s b)
    (hw : b.sequencer.isWaiting = false) (hb : c.UnfoldsAtOnce s.work b trace [] z) :
    ∃ b' trace', Session.Alike u b' ∧ b'.sequencer.isWaiting = false ∧
      c.UnfoldsAtOnce u.work b' trace' [] z := by
  induction h generalizing b trace with
  | settled => exact ⟨b, trace, ha, hw, hb⟩
  | @ran s t _ q behind _ _ _ hp _ hends _ ih =>
    obtain ⟨queue, x, hrun, -, -, hparked, hbare⟩ := hends.exists_putBack hc s.depth
    obtain ⟨b', hrun', ha', hw'⟩ := hrun.alike hc (ha.of_bare_eq rfl rfl) hw
    rw [Session.work, hp, worklist_cons] at hb
    obtain ⟨more, hmore⟩ := hrun'.rest_of_done hb
    -- what the sequence parks goes in front of the queue, as the rest of its work does
    have hleft : c.UnfoldsAtOnce (t.putBack behind s.depth).work b' more [] z := by
      rw [Session.work, hparked, worklist_append]
      exact hmore
    exact ih (ha'.of_bare_eq hbare rfl) hw' hleft
  | @aborted s t _ q behind _ _ _ _ hp _ hends _ _ =>
    cases hends with
    | refused hrun hr =>
      obtain ⟨b', hrun', ha', hw'⟩ := hrun.alike hc (ha.of_bare_eq rfl rfl) hw
      rw [Session.work, hp, worklist_cons] at hb
      obtain ⟨more, hmore⟩ := hrun'.rest_of_done hb
      exact (hr.elim_alike hc ha' hw' hmore).elim

theorem sequencer_eq_of_stopped_opens {depth : Nat} {front : List Entry}
    (h : @Opens τ (Seconds.stopped τ) c depth i s front t) : t.sequencer = s.sequencer := by
  cases h with
  | line hs => exact sequencer_eq_of_stopped_step hs
  | hook _ => rfl
  | unbound _ => rfl

/-- What an input opens is the same with and without delays. -/
theorem Opens.alike (hc : c.IsBuiltin) {depth : Nat} {front front' : List Entry}
    (h : c.Opens depth i s front t) (h' : @Opens τ (Seconds.stopped τ) c depth i s front' t') :
    front' = front ∧ Session.Alike t t' := by
  cases h with
  | @line text _ _ _ hs =>
    cases h' with
    | line hs' =>
      obtain ⟨hout, hthen⟩ := hc.mirrors_step ⟨text, depth⟩ s s (.refl s)
      rw [hs, hs'] at hout hthen
      cases hout
      exact ⟨rfl, hthen⟩
  | hook hh =>
    cases h' with
    | hook hh' =>
      rw [hh] at hh'
      cases hh'
      exact ⟨rfl, .refl _⟩
    | unbound hh' =>
      rw [hh] at hh'
      cases hh'
  | unbound hh =>
    cases h' with
    | hook hh' =>
      rw [hh] at hh'
      cases hh'
    | unbound _ => exact ⟨rfl, .refl _⟩

/-- Without delays nothing is parked. -/
theorem unfoldsAtOnce_of_ends (hw : s.sequencer.isWaiting = false)
    (ht : t.sequencer = s.sequencer)
    (h : @Ends τ (Seconds.stopped τ) c work t trace (.ok ()) u) :
    c.UnfoldsAtOnce work t trace [] u ∧ u.sequencer = s.sequencer := by
  obtain ⟨queue, x, rfl, hrun, hq, -⟩ :=
    @Ends.exists_of_ok τ (Seconds.stopped τ) c work trace t u h
  have hx : x.sequencer = s.sequencer := (UnfoldsAtOnce.sequencer_eq hrun).trans ht
  have hnil : queue = [] := by
    rcases hq with hnil | hwait
    · exact hnil
    · have hwait' : x.sequencer.isWaiting = true := hwait
      rw [hx, hw] at hwait'
      cases hwait'
  rw [hnil] at hrun ⊢
  rw [@Session.parkAll_nil τ (Seconds.stopped τ) x]
  exact ⟨hrun, hx⟩

/-- What runs at once without delays can be run with them, and the rest of it once they are over. -/
theorem exists_alike_of_input (hc : c.IsBuiltin) (hw : s.sequencer.isWaiting = false)
    (hp : s.sequencer.parked = []) (hno : ¬ c.InputExceeds s i) (h : c.Returns i.op s outcome u)
    {front' : List Entry} (ho' : @Opens τ (Seconds.stopped τ) c s.depth i s front' t')
    (hz : c.UnfoldsAtOnce front' t' trace [] z) :
    ∃ b trace', Session.Alike u b ∧ b.sequencer.isWaiting = false ∧
      c.UnfoldsAtOnce u.work b trace' [] z := by
  obtain ⟨front, t, trace', ho, hends⟩ := exists_opens hc hno h
  obtain ⟨rfl, ha⟩ := ho.alike hc ho'
  obtain ⟨queue, x, rfl, hrun, -, -⟩ := hends.exists_of_ok
  have hw' : t'.sequencer.isWaiting = false := by
    rw [sequencer_eq_of_stopped_opens ho']
    exact hw
  obtain ⟨b, hrun', ha', hwb⟩ := hrun.alike hc ha hw'
  rw [← List.append_nil front'] at hz
  obtain ⟨more, hmore⟩ := hrun'.rest_of_done hz
  refine ⟨b, more, ha'.of_bare_eq rfl rfl, hwb, ?_⟩
  have hparked : x.sequencer.parked = [] :=
    (hrun.parked_eq hc).trans ((ho.parked_eq hc).trans hp)
  have hwork : (x.parkAll queue).work = worklist queue ++ [] := by
    show worklist (x.sequencer.parked ++ queue) = _
    rw [hparked, List.nil_append, List.append_nil]
  rwa [hwork]

/-- If no alias nests too deep without delays, none does with them until the first delay. -/
theorem not_exceeds_of_input (hc : c.IsBuiltin) (hw : s.sequencer.isWaiting = false)
    {front' : List Entry} (ho' : @Opens τ (Seconds.stopped τ) c s.depth i s front' t')
    (hz : c.UnfoldsAtOnce front' t' trace [] z) : ¬ c.InputExceeds s i := by
  intro hexceeds
  rcases exists_refused hc hexceeds with ⟨text, name, rfl, hs⟩ |
    ⟨front, t, trace', rest, x, name, ho, hrun, hr⟩
  · cases ho' with
    | line hs' =>
      have hout := (hc.mirrors_step ⟨text, s.depth⟩ s s (.refl s)).1
      rw [hs, hs'] at hout
      cases hout
  · obtain ⟨rfl, ha⟩ := ho.alike hc ho'
    have hw' : t'.sequencer.isWaiting = false := by
      rw [sequencer_eq_of_stopped_opens ho']
      exact hw
    obtain ⟨b, hrun', ha', hwb⟩ := hrun.alike hc ha hw'
    rw [← List.append_nil front'] at hz
    obtain ⟨more, hmore⟩ := hrun'.rest_of_done hz
    exact hr.elim_alike hc ha' hwb hmore

/-- As time passes, what is left to run without delays stays what is parked. -/
theorem Serves.alike (hc : c.IsBuiltin) {es : List Elapsed} (h : c.Serves s (es.map .tick) u)
    (ha : Session.Alike s b) (hw : b.sequencer.isWaiting = false)
    (hb : c.UnfoldsAtOnce s.work b trace [] z) :
    ∃ b' trace', Session.Alike u b' ∧ c.UnfoldsAtOnce u.work b' trace' [] z := by
  induction es generalizing s b trace with
  | nil =>
    cases h with
    | nil => exact ⟨b, trace, ha, hb⟩
  | cons e es ih =>
    cases h with
    | cons hr hlater =>
      obtain ⟨-, events, hu⟩ := hc.resumes_of_tick hr
      obtain ⟨b', trace', ha', hw', hb'⟩ := hu.alike hc (ha.advance e) hw hb
      exact ih hlater ha' hw' hb'

/-- The built-in commands are the same with and without delays. -/
theorem IsBuiltin.stopped (hc : c.IsBuiltin) : @IsBuiltin τ (Seconds.stopped τ) c := hc

/-- **Delay transparency**: take a console that does not wait and has nothing parked, and run an
input on it, once in time in which no delay starts, and once followed by any ticks. If no alias nests too
deep in the first run, nothing waits or is parked in it, and the second run, once nothing is parked
in it any more, has come to the same output, saves and state. Both runs come to an end. -/
theorem delay_transparent (hc : c.IsBuiltin) (hw : s.sequencer.isWaiting = false)
    (hp : s.sequencer.parked = []) (i : Input)
    (hno : ¬ @InputExceeds τ (Seconds.stopped τ) c s i) :
    ∃ b, @Returns τ (Seconds.stopped τ) c i.op s (.ok ()) b ∧ b.sequencer = s.sequencer ∧
      ∀ es : List Elapsed, ∃ a, c.Serves s (.input i :: es.map .tick) a ∧
        (a.sequencer.hasPending = false → a.output = b.output ∧ a.attempts = b.attempts ∧
          a.store = b.store ∧ a.aliases = b.aliases ∧ a.hooks = b.hooks ∧
          a.fontSize = b.fontSize ∧ a.isOpen = b.isOpen) := by
  obtain ⟨b, hb⟩ := @IsBuiltin.exists_call τ (Seconds.stopped τ) c hc.stopped (.input i) s
  obtain ⟨front, t', trace, ho', hends⟩ :=
    @exists_opens τ (Seconds.stopped τ) c s b _ i hc.stopped hno hb
  obtain ⟨hrun, hseq⟩ : c.UnfoldsAtOnce front t' trace [] b ∧ b.sequencer = s.sequencer :=
    unfoldsAtOnce_of_ends hw (sequencer_eq_of_stopped_opens ho') hends
  refine ⟨b, hb, hseq, fun es => ?_⟩
  obtain ⟨a, ha⟩ := hc.exists_serves (.input i :: es.map .tick) s
  refine ⟨a, ha, fun hdone => ?_⟩
  cases ha with
  | cons hr hlater =>
    have hin : ¬ c.InputExceeds s i := not_exceeds_of_input hc hw ho' hrun
    obtain ⟨b', trace', halike, hwb, hrun'⟩ := exists_alike_of_input hc hw hp hin hr ho' hrun
    obtain ⟨b'', trace'', halike', hrun''⟩ := hlater.alike hc halike hwb hrun'
    -- with nothing parked there is nothing left to run without delays either
    have hnil : a.work = [] := by
      have hempty : a.sequencer.parked = [] := by simpa [Sequencer.hasPending] using hdone
      rw [Session.work, hempty]
      rfl
    rw [hnil] at hrun''
    obtain ⟨-, -, rfl⟩ := @Unfolds.of_halts τ (Seconds.stopped τ) c _ _ _ _ _ hrun''
      (Or.inl (Or.inl rfl))
    obtain ⟨q, f, -, rfl⟩ := halike'
    exact ⟨rfl, rfl, rfl, rfl, rfl, rfl, rfl⟩

/-- An alias that runs another one, which waits half way, and then changes it. -/
theorem delay_transparent_nested :
    let c := exact Config.standard
    let s := Session.remembering c.config ((TextMap.empty.insert
      "a" "exec b; alias new b to print 3; b").insert "b" "print 1; delay 1; print 2")
    ∃ a b : Session Rat, c.Serves s [.input (.line "a"), .tick ⟨1, 0⟩] a ∧
      @Returns Rat (Seconds.stopped Rat) c (.execute "a") s (.ok ()) b ∧
      a.output = [.line .info "1", .line .info "2", .line .success "Registered alias 'b'",
        .line .info "3"] ∧
      a.output = b.output ∧ a.attempts = b.attempts ∧ a.aliases = b.aliases := by
  intro c s
  have h : ∃ r ∈ c.perform 12 (.execute "a") s, r.1 = .ok () ∧ r.2.sequencer.parked =
      [⟨["print 2"], 2⟩, ⟨["alias new b to print 3", "b"], 1⟩] ∧
      ∃ x ∈ c.perform 12 (.tick ⟨1, 0⟩) r.2, x.2.sequencer.hasPending = false ∧ x.2.output =
        [.line .info "1", .line .info "2", .line .success "Registered alias 'b'",
          .line .info "3"] := by
    decide +kernel
  have h' : ∃ r ∈ @perform Rat (Seconds.stopped Rat) c 12 (.dispatch "a") s, r.1 = .ok () := by
    decide +kernel
  obtain ⟨⟨_, t⟩, ht, rfl, -, ⟨_, u⟩, hu, hdone, hout⟩ := h
  obtain ⟨⟨_, v⟩, hv, rfl⟩ := h'
  have hno : ¬ @InputExceeds Rat (Seconds.stopped Rat) c s (.line "a") := by
    rintro ⟨e, t', -, hfailed⟩
    obtain ⟨herr, -⟩ := @Returns.unique Rat (Seconds.stopped Rat) _ _ _ _ _ _ _ hfailed ⟨12, hv⟩
    cases herr
  obtain ⟨b, hb, -, hsame⟩ := delay_transparent (isBuiltin_exact _) rfl rfl (.line "a") hno
  obtain ⟨a, ha, hends⟩ := hsame [⟨1, 0⟩]
  have hau : u = a := by
    rcases ha with _ | ⟨hfirst, hlater⟩
    obtain ⟨-, rfl⟩ := Returns.unique hfirst ⟨12, ht⟩
    rcases hlater with _ | ⟨hsecond, hnil⟩
    cases hnil
    obtain ⟨-, rfl⟩ := Returns.unique hsecond ⟨12, hu⟩
    rfl
  subst hau
  obtain ⟨hout', hattempts, -, haliases, -⟩ := hends hdone
  exact ⟨u, b, ha, hb, hout, hout', hattempts, haliases⟩

end Console

end CommandConsole

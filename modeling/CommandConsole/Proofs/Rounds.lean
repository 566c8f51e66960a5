import CommandConsole.Proofs.Course
import CommandConsole.Proofs.Reachable

/-!
# CommandConsole.Proofs.Rounds — a tick takes up the front of the queue and keeps the rest

A tick goes in rounds. In each it takes the first sequence from the queue, sets the others aside and
runs the sequence, which may do anything: run lines, fire hooks, let time pass. Then what has been
parked meanwhile is put in front of the others. So of the sequences that were in the queue when the
tick began some first ones are taken up, each in a round of its own and in their order, and the
others stay behind all that is new. Nothing that happens in a round can see what is set aside.

* `Console.Rounds`: how a tick goes, round by round.
* `Console.Rounds.parked_drop`: what is taken up and what stays are the queue as it was.
* `Console.Course.stems`: whatever is run stems from where it starts or from the queue.
* `Console.Rounds.aside`: what stays can be replaced, and the tick goes in the same rounds.
* `Console.tick_takes_front`: all this for every tick that ends.
-/

namespace CommandConsole

variable {τ : Type} [Seconds τ]

/-- A sequence that is taken up, and what happens in its run. -/
structure Round (τ : Type) where
  sequence : ParkedSequence
  /-- The aliases whose expansions lead to the sequence. -/
  path : Path
  /-- Whether it has been parked since the tick began. -/
  isNew : Bool
  moments : List (Moment τ)

/-- The rounds of the sequences that were in the queue when the tick began. -/
def Round.taken (rounds : List (Round τ)) : List (Round τ) := rounds.filter (!·.isNew)

/-- The session with another queue. -/
def Session.holding (s : Session τ) (parked : List ParkedSequence) : Session τ :=
  { s with sequencer := { s.sequencer with parked } }

namespace Console

/-- How the sequences that are due are taken up. So many at the front of the queue have been parked
since the tick began, before the rounds and after them. -/
inductive Rounds (c : Console τ) : Nat → Session τ → List Path → List (Round τ) →
    Nat → Session τ → List Path → Prop
  | settled {new : Nat} {s : Session τ} {origins : List Path} :
      s.sequencer.parked = [] ∨ s.sequencer.isWaiting = true →
      Rounds c new s origins [] new s origins
  | round {new new' : Nat} {s t u : Session τ} {q : ParkedSequence}
      {behind : List ParkedSequence} {origin : Path} {origins origins' origins'' : List Path}
      {moments : List (Moment τ)} {rounds : List (Round τ)} {outcome : Outcome} :
      s.sequencer.isWaiting = false → s.sequencer.parked = q :: behind →
      c.Runs q.statements (s.resuming q) outcome t →
      c.Course (.statements q.statements) origin (s.resuming q) [] moments outcome t origins' →
      origins'.length = t.sequencer.parked.length →
      Rounds c (t.sequencer.parked.length + (new - 1))
        ((t.reportFailure outcome).putBack behind s.depth) (origins' ++ origins)
        rounds new' u origins'' →
      Rounds c new s (origin :: origins) (⟨q, origin, decide (0 < new), moments⟩ :: rounds)
        new' u origins''

variable {c : Console τ} {s t u : Session τ} {outcome : Outcome} {new new' : Nat}
  {origins origins' : List Path} {rounds : List (Round τ)}

/-! ### Every tick goes in rounds -/

/-- What is due is taken up in rounds. -/
theorem exists_rounds {fuel most : Nat}
    (h : resume (runStatements fun text => c.perform fuel (.dispatch text)) most s = some u)
    (new : Nat) (hlen : origins.length = s.sequencer.parked.length) :
    ∃ rounds new' origins', c.Rounds new s origins rounds new' u origins' := by
  induction most using Nat.strongRecOn generalizing s new origins with
  | ind most ih =>
    rcases resume_cases h with
      ⟨hs, rfl⟩ | ⟨fewer, q, behind, first, x, hlt, hw, hp, hx, hlater⟩
    · exact ⟨[], new, origins, .settled hs⟩
    · rw [hp] at hlen
      obtain ⟨origin, origins, rfl⟩ := List.exists_cons_of_length_eq_add_one hlen
      obtain ⟨moments, origins', hcourse, hlen'⟩ :=
        traced_statements traced_perform hx origin [] rfl
      obtain ⟨rounds, new', origins'', hrounds⟩ := ih fewer hlt hlater
        (x.sequencer.parked.length + (new - 1))
        (length_putBack hlen' first (Nat.succ.inj hlen) s.depth)
      exact ⟨_, new', origins'', .round hw hp ⟨fuel, hx⟩ hcourse hlen' hrounds⟩

/-- What goes in rounds resumes what is due. -/
theorem Rounds.drains (h : c.Rounds new s origins rounds new' u origins') :
    c.Drains rounds.length s u := by
  induction h with
  | settled hs => exact .settled hs 0
  | round hw hp hr _ _ _ ih => exact .next hw hp hr ih

/-- What happens while sequences are resumed is what happens in the rounds, one after another. -/
theorem Rounds.course (h : c.Rounds new s origins rounds new' u origins') (path : Path) :
    c.Course .due path s origins (rounds.flatMap (·.moments)) (.ok ()) u origins' := by
  induction h with
  | settled hs => exact .settled hs
  | round hw hp _ hcourse _ _ ih => exact .resumed hw hp hcourse ih

/-! ### What is taken up, and what stays -/

omit [Seconds τ] in
theorem Round.taken_cons (r : Round τ) (rounds : List (Round τ)) :
    Round.taken (r :: rounds) = (if r.isNew then [] else [r]) ++ Round.taken rounds := by
  cases h : r.isNew <;> simp [Round.taken, h]

/-- The first of a queue is taken up, and others are put in front of what was behind it. What was
there before that many is what was behind, and the first one unless it is new itself. -/
theorem drop_of_taken {α : Type} (first : α) (parked behind : List α) (new : Nat) :
    (first :: behind).drop new = (if 0 < new then [] else [first]) ++
      (parked ++ behind).drop (parked.length + (new - 1)) := by
  rw [List.drop_length_add_append]
  cases new <;> rfl

/-- The queue as it was, past what is new, is what is taken up and then what stays. -/
theorem Rounds.parked_drop (h : c.Rounds new s origins rounds new' u origins')
    (hnew : new ≤ s.sequencer.parked.length) : new' ≤ u.sequencer.parked.length ∧
      s.sequencer.parked.drop new =
        (Round.taken rounds).map (·.sequence) ++ u.sequencer.parked.drop new' := by
  induction h with
  | settled => exact ⟨hnew, rfl⟩
  | @round new new' s t u q behind origin origins origins' origins'' moments rounds outcome
      _ hp _ _ _ _ ih =>
    have hback : ((t.reportFailure outcome).putBack behind s.depth).sequencer.parked =
        t.sequencer.parked ++ behind :=
      congrArg (· ++ behind) (parked_reportFailure t outcome)
    rw [hp, List.length_cons] at hnew
    rw [hback, List.length_append] at ih
    obtain ⟨hnew', hdrop⟩ := ih (by omega)
    refine ⟨hnew', ?_⟩
    rw [hp, drop_of_taken q t.sequencer.parked, hdrop, Round.taken_cons]
    by_cases hzero : 0 < new <;> simp [hzero]

/-- So are the paths. -/
theorem Rounds.origins_drop (h : c.Rounds new s origins rounds new' u origins')
    (hlen : origins.length = s.sequencer.parked.length) :
    origins'.length = u.sequencer.parked.length ∧
      origins.drop new = (Round.taken rounds).map (·.path) ++ origins'.drop new' := by
  induction h with
  | settled => exact ⟨hlen, rfl⟩
  | @round new new' s t u q behind origin origins origins' origins'' moments rounds outcome
      _ hp _ _ hlen' _ ih =>
    rw [hp] at hlen
    obtain ⟨hlast, hdrop⟩ := ih (length_putBack hlen' outcome (Nat.succ.inj hlen) s.depth)
    refine ⟨hlast, ?_⟩
    rw [drop_of_taken origin origins', hlen', hdrop, Round.taken_cons]
    by_cases hzero : 0 < new <;> simp [hzero]

/-! ### Where it comes from -/

/-- Whatever is run stems from the path that it starts on, or from those of what is parked. -/
theorem Course.stems {P : Path → Prop} (hP : ∀ path name, P path → P (path ++ [name]))
    {job : Job τ} {path : Path} {moments : List (Moment τ)}
    (h : c.Course job path s origins moments outcome t origins') (hpath : P path)
    (horigins : ∀ o ∈ origins, P o) : (∀ m ∈ moments, P m.path) ∧ ∀ o ∈ origins', P o := by
  induction h with
  | primitive | blank | unresolved | help | unbound | ignored =>
    exact ⟨List.forall_mem_singleton.mpr hpath, horigins⟩
  | refused =>
    exact ⟨List.forall_mem_cons.mpr ⟨hpath, List.forall_mem_singleton.mpr hpath⟩, horigins⟩
  | expanded _ _ _ _ _ ih =>
    obtain ⟨hmoments, ht⟩ := ih (hP _ _ hpath) horigins
    exact ⟨List.forall_mem_cons.mpr ⟨hpath, List.forall_mem_cons.mpr ⟨hpath, hmoments⟩⟩, ht⟩
  | invoked _ _ _ _ _ ih | execute _ ih | runSequence _ ih | tick _ ih | fired _ _ ih
  | submitted _ _ ih =>
    obtain ⟨hmoments, ht⟩ := ih hpath horigins
    exact ⟨List.forall_mem_cons.mpr ⟨hpath, hmoments⟩, ht⟩
  | nil | done | fail | settled => exact ⟨List.forall_mem_nil _, horigins⟩
  | park =>
    exact ⟨List.forall_mem_nil _,
      List.forall_mem_append.mpr ⟨horigins, List.forall_mem_singleton.mpr hpath⟩⟩
  | goesOn _ _ _ _ ih ih' | perform _ _ ih ih' =>
    obtain ⟨hmoments, ht⟩ := ih hpath horigins
    obtain ⟨hmoments', hu⟩ := ih' hpath ht
    exact ⟨List.forall_mem_append.mpr ⟨hmoments, hmoments'⟩, hu⟩
  | abort _ _ _ ih | look _ ih => exact ih hpath horigins
  | resumed _ _ _ _ ih ih' =>
    obtain ⟨hfirst, hbehind⟩ := List.forall_mem_cons.mp horigins
    obtain ⟨hmoments, ht⟩ := ih hfirst (List.forall_mem_nil _)
    obtain ⟨hmoments', hu⟩ := ih' hpath (List.forall_mem_append.mpr ⟨ht, hbehind⟩)
    exact ⟨List.forall_mem_append.mpr ⟨hmoments, hmoments'⟩, hu⟩

/-- Every round stems from a sequence that was in the queue and is taken up. -/
theorem Rounds.stems {P : Path → Prop} (hP : ∀ path name, P path → P (path ++ [name]))
    (h : c.Rounds new s origins rounds new' u origins') (hnew : ∀ o ∈ origins.take new, P o)
    (htaken : ∀ r ∈ Round.taken rounds, P r.path) : ∀ r ∈ rounds, P r.path := by
  induction h with
  | settled => exact List.forall_mem_nil _
  | @round new new' s t u q behind origin origins origins' origins'' moments rounds outcome
      _ _ _ hcourse hlen' _ ih =>
    rw [Round.taken_cons] at htaken
    obtain ⟨hfirst, hlater⟩ := List.forall_mem_append.mp htaken
    have horigin : P origin := by
      cases new with
      | zero => exact hfirst ⟨q, origin, false, moments⟩ (List.mem_singleton.mpr rfl)
      | succ new => exact hnew origin (List.mem_cons_self ..)
    obtain ⟨-, hparked⟩ := hcourse.stems hP horigin (List.forall_mem_nil _)
    have hbehind : ∀ o ∈ origins.take (new - 1), P o := by
      cases new with
      | zero => exact List.forall_mem_nil _
      | succ new => exact (List.forall_mem_cons.mp hnew).2
    refine List.forall_mem_cons.mpr ⟨horigin, ih ?_ hlater⟩
    rw [← hlen', List.take_length_add_append]
    exact List.forall_mem_append.mpr ⟨hparked, hbehind⟩

/-- What happens in a round stems from the sequence that is taken up. -/
theorem Rounds.path_prefix (h : c.Rounds new s origins rounds new' u origins') :
    ∀ r ∈ rounds, ∀ m ∈ r.moments, r.path <+: m.path := by
  induction h with
  | settled => exact List.forall_mem_nil _
  | @round _ _ _ _ _ _ _ origin _ _ _ _ _ _ _ _ _ hcourse _ _ ih =>
    have hextends (path : Path) (name : String) (hp : origin <+: path) :
        origin <+: path ++ [name] := hp.trans (List.prefix_append path [name])
    obtain ⟨hmoments, -⟩ := hcourse.stems hextends List.prefix_rfl (List.forall_mem_nil _)
    exact List.forall_mem_cons.mpr ⟨hmoments, ih⟩

/-! ### What is set aside -/

omit [Seconds τ] in
theorem holding_putBack (t : Session τ) (outcome : Outcome) (depth : Nat)
    (behind other : List ParkedSequence) :
    ((t.reportFailure outcome).putBack behind depth).holding (t.sequencer.parked ++ other) =
      (t.reportFailure outcome).putBack other depth := by
  rw [← parked_reportFailure t outcome]
  rfl

/-- What stays has no part in the rounds: with any other sequences in its place they are the
same. -/
theorem Rounds.aside (h : c.Rounds new s origins rounds new' u origins')
    {front left rest : List ParkedSequence} {frontPaths leftPaths restPaths : List Path}
    (hs : s.sequencer.parked = front ++ rest) (hu : u.sequencer.parked = left ++ rest)
    (ho : origins = frontPaths ++ restPaths) (hu' : origins' = leftPaths ++ restPaths)
    (hfront : front.length = new + (Round.taken rounds).length)
    (hpaths : frontPaths.length = front.length)
    (hrest : rest ≠ []) (other : List ParkedSequence) (otherPaths : List Path) :
    c.Rounds new (s.holding (front ++ other)) (frontPaths ++ otherPaths) rounds new'
      (u.holding (left ++ other)) (leftPaths ++ otherPaths) := by
  induction h generalizing front frontPaths with
  | @settled new s _ hsettled =>
    obtain rfl : front = left := List.append_cancel_right (hs.symm.trans hu)
    obtain rfl : frontPaths = leftPaths := List.append_cancel_right (ho.symm.trans hu')
    have hwait : s.sequencer.isWaiting = true :=
      hsettled.resolve_left (by simp [hs, hrest])
    exact .settled (Or.inr hwait)
  | @round new new' s t u q behind origin origins origins' origins'' moments rounds outcome
      hw hp hr hcourse hlen' _ ih =>
    have hcount : front.length = (new - 1) + (Round.taken rounds).length + 1 := by
      rw [hfront, Round.taken_cons, List.length_append]
      cases new <;> simp <;> omega
    obtain ⟨first, front, rfl⟩ := List.exists_cons_of_length_eq_add_one hcount
    obtain ⟨firstPath, frontPaths, rfl⟩ := List.exists_cons_of_length_eq_add_one
      (hpaths.trans hcount)
    obtain ⟨rfl, rfl⟩ := List.cons.inj (hp.symm.trans hs)
    obtain ⟨rfl, rfl⟩ := List.cons.inj ho
    -- the sequence runs with the others set aside, so it runs the same with any others
    have hback : ((t.reportFailure outcome).putBack (front ++ rest) s.depth).sequencer.parked =
        (t.sequencer.parked ++ front) ++ rest := by
      rw [List.append_assoc, ← parked_reportFailure t outcome]
      rfl
    have hlater := ih hback hu (List.append_assoc origins' frontPaths restPaths).symm hu'
      (by rw [List.length_append, Nat.succ.inj hcount, Nat.add_assoc])
      (by rw [List.length_append, List.length_append, hlen', Nat.succ.inj hpaths])
    rw [List.append_assoc, List.append_assoc, holding_putBack] at hlater
    exact .round hw rfl hr hcourse hlen' hlater

/-- **Re-entrant ticks.** However handlers go about in it, with ticks of their own too, a tick that
ends succeeds. Some first ones of the sequences that were in the queue are taken up, each in one
round, in their order and on their own paths. The rest is the end of the queue that is left, as it
was, behind what is new. Every round, and everything that happens in it, stems from those that were
taken up; what is set aside has no part in it, and with anything else in its place the tick goes in
the same rounds. -/
theorem tick_takes_front {e : Elapsed} (h : c.Returns (.tick e) s outcome u) (path : Path)
    (hlen : origins.length = s.sequencer.parked.length) :
    outcome = .ok () ∧ ∃ rounds left rest leftPaths restPaths,
      let front := (Round.taken rounds).map (·.sequence)
      let frontPaths := (Round.taken rounds).map (·.path)
      s.sequencer.parked = front ++ rest ∧ origins = frontPaths ++ restPaths ∧
      u.sequencer.parked = left ++ rest ∧ leftPaths.length = left.length ∧
      c.Rounds 0 (s.advance e) origins rounds left.length u (leftPaths ++ restPaths) ∧
      c.Course (.op (.tick e)) path s origins
        (⟨.starts (.tick e), path, s⟩ :: rounds.flatMap (·.moments)) (.ok ()) u
        (leftPaths ++ restPaths) ∧
      (∀ r ∈ rounds, (∃ origin ∈ frontPaths, origin <+: r.path) ∧
        ∀ m ∈ r.moments, r.path <+: m.path) ∧
      (rest ≠ [] → ∀ (other : List ParkedSequence) (otherPaths : List Path),
        c.Rounds 0 ((s.holding (front ++ other)).advance e) (frontPaths ++ otherPaths) rounds
          left.length (u.holding (left ++ other)) (leftPaths ++ otherPaths) ∧
        c.Returns (.tick e) (s.holding (front ++ other)) (.ok ()) (u.holding (left ++ other))) := by
  obtain ⟨fuel, hf⟩ := h
  cases fuel with
  | zero => cases hf
  | succ fuel =>
    obtain ⟨u, hresume, heq⟩ := Option.map_eq_some_iff.mp hf
    cases heq
    obtain ⟨rounds, new, origins', hrounds⟩ :=
      exists_rounds (s := s.advance e) hresume 0 hlen
    obtain ⟨hnew, hparked⟩ := hrounds.parked_drop (Nat.zero_le _)
    obtain ⟨hlen', horigins⟩ := hrounds.origins_drop hlen
    rw [List.drop_zero] at hparked horigins
    have hleft : (u.sequencer.parked.take new).length = new := List.length_take_of_le hnew
    have hleftPaths : (origins'.take new).length = new :=
      List.length_take_of_le (hlen'.symm ▸ hnew)
    have hu := (List.take_append_drop new u.sequencer.parked).symm
    have ho := (List.take_append_drop new origins').symm
    refine ⟨rfl, rounds, u.sequencer.parked.take new, u.sequencer.parked.drop new,
      origins'.take new, origins'.drop new, hparked, horigins, hu, hleftPaths.trans hleft.symm,
      ?_, ?_, fun r hr => ⟨?_, hrounds.path_prefix r hr⟩, fun hrest other otherPaths => ?_⟩
    · rwa [hleft, ← ho]
    · rw [← ho]
      exact .tick (hrounds.course path)
    · exact hrounds.stems
        (P := fun p => ∃ origin ∈ (Round.taken rounds).map Round.path, origin <+: p)
        (fun p name ⟨origin, hmem, hp⟩ => ⟨origin, hmem, hp.trans (List.prefix_append p [name])⟩)
        (List.forall_mem_nil _)
        (fun r hr => ⟨r.path, List.mem_map_of_mem hr, List.prefix_rfl⟩) r hr
    · have haside := hrounds.aside hparked hu horigins ho (by simp) (by simp) hrest other otherPaths
      rw [hleft]
      exact ⟨haside, haside.drains.returns_tick⟩

/-- A handler parks a sequence and lets time pass itself, which runs that sequence and none of those
set aside; then it asks for a delay, so its own line is left over in front of the others. -/
theorem tick_takes_front_reentrant :
    let hold : CommandDecl (Handler Rat) :=
      { name := "hold"
        description := "runs a sequence of its own"
        signatures := [Builtins.signature "hold" "" fun _ => do
          Action.doing (.requestDelay 1)
          Action.call (.runSequence "print a")
          Action.call (.tick ⟨1, 0⟩)
          Action.doing (.requestDelay 2)] }
    let c : Console Rat :=
      { config := .standard
        registry := (Registry.build (Builtins.all ++ [hold])).toOption.getD {} }
    let s := (Session.remembering c.config .empty).holding
      [⟨["hold", "print b"], 0⟩, ⟨["print c"], 1⟩, ⟨["print d"], 0⟩]
    ∃ u, c.Returns (.tick ⟨1, 0⟩) s (.ok ()) u ∧ u.output = [.line .info "a"] ∧
      u.sequencer.parked = [⟨["print b"], 0⟩, ⟨["print c"], 1⟩, ⟨["print d"], 0⟩] ∧
      ∃ rounds left rest, s.sequencer.parked = (Round.taken rounds).map (·.sequence) ++ rest ∧
        u.sequencer.parked = left ++ rest ∧
        ∃ origins, c.Rounds 0 (s.advance ⟨1, 0⟩) [["first"], ["second"], ["third"]] rounds
          left.length u origins := by
  intro hold c s
  have h : ∃ r ∈ c.perform 12 (.tick ⟨1, 0⟩) s, r.1 = .ok () ∧ r.2.output = [.line .info "a"] ∧
      r.2.sequencer.parked = [⟨["print b"], 0⟩, ⟨["print c"], 1⟩, ⟨["print d"], 0⟩] := by
    decide +kernel
  obtain ⟨⟨_, u⟩, hu, rfl, hout, hp⟩ := h
  have hr : c.Returns (.tick ⟨1, 0⟩) s (.ok ()) u := ⟨12, hu⟩
  have hlen : [["first"], ["second"], ["third"]].length = s.sequencer.parked.length := rfl
  obtain ⟨-, rounds, left, rest, leftPaths, restPaths, hs, -, hleft, -, hrounds, -⟩ :=
    tick_takes_front hr [] hlen
  exact ⟨u, hr, hout, hp, rounds, left, rest, hs, hleft, _, hrounds⟩

end Console

end CommandConsole

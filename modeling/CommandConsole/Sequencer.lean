import CommandConsole.Seconds

/-!
# CommandConsole.Sequencer — delayed sequences of statements

All sequences of statements share one countdown. While it is positive they wait, parked in a queue;
each request to delay adds to it, up to a ceiling for each request, and elapsed time counts it down.

* `requestDelay`, `advance`: what changes the countdown.
* `park`, `popReady?`, `takeParked`, `restoreParked`: what changes the queue.
-/

namespace CommandConsole

/-- What became of a request to delay. -/
inductive DelayRequest (τ : Type) where
  /-- The amount is not positive and does nothing. -/
  | ignored
  | accepted (amount : τ)
  /-- The amount is above the ceiling, which was added in its place. -/
  | clamped (requested applied : τ)

/-- The statements that a sequence still has to run. -/
structure ParkedSequence where
  statements : List String
  /-- How many alias expansions the statements come from. -/
  depth : Nat
deriving DecidableEq, Repr

/-- The countdown and the sequences that wait for it. -/
structure Sequencer (τ : Type) where
  remaining : τ
  /-- The most that one request can add. -/
  ceiling : τ
  /-- Oldest first. -/
  parked : List ParkedSequence := []

namespace Sequencer

variable {τ : Type} [Seconds τ]

/-- Nothing waits and nothing is parked. -/
def start (ceiling : τ) : Sequencer τ := { remaining := Seconds.zero, ceiling }

/-- Adds to the countdown. -/
def requestDelay (s : Sequencer τ) (amount : τ) : DelayRequest τ × Sequencer τ :=
  if !Seconds.isPositive amount then (.ignored, s)
  else if Seconds.exceeds amount s.ceiling then
    (.clamped amount s.ceiling, { s with remaining := Seconds.add s.remaining s.ceiling })
  else (.accepted amount, { s with remaining := Seconds.add s.remaining amount })

/-- Counts elapsed time down. -/
def advance (s : Sequencer τ) (e : Elapsed) : Sequencer τ :=
  { s with remaining := Seconds.countDown s.remaining e }

/-- Whether sequences have to wait. -/
def isWaiting (s : Sequencer τ) : Bool := Seconds.isPositive s.remaining

/-- Puts a sequence at the end of the queue. -/
def park (s : Sequencer τ) (sequence : ParkedSequence) : Sequencer τ :=
  { s with parked := s.parked ++ [sequence] }

/-- Takes the oldest sequence out, unless sequences have to wait. -/
def popReady? (s : Sequencer τ) : Option (ParkedSequence × Sequencer τ) :=
  if s.isWaiting then none
  else match s.parked with
    | [] => none
    | sequence :: rest => some (sequence, { s with parked := rest })

/-- Takes every sequence out. -/
def takeParked (s : Sequencer τ) : List ParkedSequence × Sequencer τ :=
  (s.parked, { s with parked := [] })

/-- Puts sequences behind those parked since they were taken out. -/
def restoreParked (s : Sequencer τ) (sequences : List ParkedSequence) : Sequencer τ :=
  { s with parked := s.parked ++ sequences }

/-- Whether any sequence is parked. -/
def hasPending (s : Sequencer τ) : Bool := !s.parked.isEmpty

end Sequencer

end CommandConsole

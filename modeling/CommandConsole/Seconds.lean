/-!
# CommandConsole.Seconds — amounts of time

Delays are amounts of seconds, and the host reports elapsed time in seconds and nanoseconds. What
the console needs of an amount is the class `Seconds`; it does not fix how amounts are represented,
so that the console can run on floating-point numbers and be reasoned about on exact ones.
-/

namespace CommandConsole

/-- Time that has passed, as the host's clock reports it. -/
structure Elapsed where
  seconds : Nat := 0
  nanos : Nat := 0
deriving DecidableEq, Repr, Inhabited

/-- The elapsed time of so many milliseconds. -/
def Elapsed.ofMillis (millis : Nat) : Elapsed :=
  ⟨millis / 1000, millis % 1000 * 1000000⟩

/-- What the console needs of an amount of seconds. -/
class Seconds (τ : Type) where
  ofNat : Nat → τ
  add : τ → τ → τ
  /-- Takes elapsed time away, stopping at zero. -/
  countDown : τ → Elapsed → τ
  isPositive : τ → Bool
  isFinite : τ → Bool
  /-- Whether the first amount is above the second. -/
  exceeds : τ → τ → Bool
  /-- The amount that a text writes in decimal. -/
  read? : String → Option τ
  /-- An amount in decimal, with no more digits than it needs. -/
  plain : τ → String
  /-- An amount in decimal with two places. -/
  hundredths : τ → String

namespace Seconds

variable {τ : Type} [Seconds τ]

/-- No time at all. -/
def zero : τ := ofNat 0

/-- Whether an amount can be the ceiling of a delay. -/
def isCeiling (t : τ) : Bool := isPositive t && isFinite t

end Seconds

end CommandConsole

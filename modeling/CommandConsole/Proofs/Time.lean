import Mathlib.Algebra.Order.Ring.Rat
import CommandConsole.Decimal.Nearest
import CommandConsole.Seconds

/-!
# CommandConsole.Proofs.Time — what a countdown relies on

A countdown starts at no time, positive amounts are added to it, and elapsed time is taken away. All
that the console relies on is that it then never holds anything but no time or a positive amount,
and that it is positive once an amount has been added.

* `Seconds.IsCount`: what a countdown can hold.
* `LawfulSeconds`: amounts with which it stays so.
* Rational numbers are such amounts, without any rounding.
-/

namespace CommandConsole

/-- What a countdown can hold: no time, or a positive amount. -/
def Seconds.IsCount {τ : Type} [Seconds τ] (t : τ) : Prop :=
  t = Seconds.zero ∨ Seconds.isPositive t = true

/-- Amounts with which a countdown works. -/
class LawfulSeconds (τ : Type) [Seconds τ] : Prop where
  isPositive_add {a b : τ} : Seconds.IsCount a → Seconds.isPositive b = true →
    Seconds.isPositive (Seconds.add a b) = true
  isCount_countDown {a : τ} (e : Elapsed) : Seconds.IsCount a →
    Seconds.IsCount (Seconds.countDown a e)

/-! ### Exact amounts -/

/-- Elapsed time as a rational number of seconds. -/
def Elapsed.toRat (e : Elapsed) : Rat := e.seconds + (e.nanos : Rat) / 1000000000

/-- Whole amounts are written in decimal, others as a fraction. -/
instance : Seconds Rat where
  ofNat n := n
  add a b := a + b
  countDown t e := if e.toRat < t then t - e.toRat else 0
  isPositive t := 0 < t
  isFinite _ := true
  exceeds a b := b < a
  read? s := (Decimal.nat? s.toList).map fun n => (n : Rat)
  plain t := if t.den = 1 then s!"{t.num}" else s!"{t.num}/{t.den}"
  hundredths t :=
    let n := Decimal.roundQuotient (100 * t.num.natAbs) t.den
    s!"{n / 100}.{n % 100 / 10}{n % 10}"

theorem Rat.isPositive_iff {t : Rat} : Seconds.isPositive t = true ↔ 0 < t := decide_eq_true_iff

/-- Time that passes is taken away, as far as there is anything left. -/
theorem Rat.countDown_eq (t : Rat) (e : Elapsed) :
    Seconds.countDown t e = max 0 (t - e.toRat) := by
  show (if e.toRat < t then t - e.toRat else 0) = _
  split
  · next h => rw [max_eq_right (sub_nonneg.mpr h.le)]
  · next h => rw [max_eq_left (sub_nonpos.mpr (not_lt.mp h))]

/-- Nothing is left of an exact amount once as much time has passed. -/
theorem Rat.isPositive_countDown_eq_false {t : Rat} {e : Elapsed} :
    Seconds.isPositive (Seconds.countDown t e) = false ↔ t ≤ e.toRat := by
  rw [← Bool.not_eq_true, isPositive_iff, not_lt, countDown_eq, max_le_iff, sub_nonpos]
  exact and_iff_right le_rfl

instance : LawfulSeconds Rat where
  isPositive_add := by
    intro a b ha hb
    rw [Rat.isPositive_iff] at hb ⊢
    have h0 : 0 ≤ a := by
      rcases ha with rfl | ha
      · exact le_of_eq Nat.cast_zero.symm
      · exact le_of_lt (Rat.isPositive_iff.mp ha)
    exact add_pos_of_nonneg_of_pos h0 hb
  isCount_countDown := by
    intro a e _
    rw [Rat.countDown_eq]
    rcases le_or_gt (a - e.toRat) 0 with hle | hlt
    · exact Or.inl ((max_eq_left hle).trans Nat.cast_zero.symm)
    · exact Or.inr (Rat.isPositive_iff.mpr (lt_max_of_lt_right hlt))

end CommandConsole

import CommandConsole.Seconds
import CommandConsole.Decimal.Shortest

/-!
# CommandConsole.Seconds.Binary — seconds as double-precision numbers

The amounts that the running console uses. Elapsed time becomes the sum of its seconds and of its
nanoseconds over a thousand million, each rounded.
-/

namespace CommandConsole

/-- Elapsed time as a double-precision number of seconds. -/
def Elapsed.toFloat (e : Elapsed) : Float :=
  (UInt64.ofNat e.seconds).toFloat + (UInt64.ofNat e.nanos).toFloat / 1000000000.0

instance : Seconds Float where
  ofNat n := (UInt64.ofNat n).toFloat
  add a b := a + b
  countDown t e := let rest := t - e.toFloat; if 0.0 < rest then rest else 0.0
  isPositive t := 0.0 < t
  isFinite t := t.isFinite
  exceeds a b := b < a
  read? s := Decimal.ofChars? s.toList
  plain := Decimal.plain
  hundredths := Decimal.hundredths

end CommandConsole

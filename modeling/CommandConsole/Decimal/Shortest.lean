import CommandConsole.Decimal.Nearest

/-!
# CommandConsole.Decimal.Shortest — writing a binary number in decimal

`shortest` finds the fewest digits that read back as the same double-precision number, and among
those the nearest. `plain` writes them without an exponent; `fixed` writes a given number of places,
rounded from the exact value.

All arithmetic is exact: a finite positive number is a significand times a power of two.
-/

namespace CommandConsole.Decimal

/-- A positive finite number `significand · 2 ^ exponent`. -/
structure Binary where
  significand : Nat
  exponent : Int
deriving DecidableEq, Repr

/-- The number that the lower 63 bits of a finite number stand for. -/
def Binary.ofBits (bits : Nat) : Binary :=
  let field := bits >>> 52
  let fraction := bits % 0x10000000000000
  if field = 0 then ⟨fraction, -1074⟩ else ⟨fraction + 0x10000000000000, field - 1075⟩

/-- A decimal number `digits · 10 ^ exponent`. -/
structure Digits where
  digits : Nat
  exponent : Int
deriving DecidableEq, Repr

/-- The least exponent of a power of ten above the positive number `num / den`. -/
def magnitude (num den : Nat) : Int :=
  let e : Int := (Nat.repr num).length - (Nat.repr den).length
  let atLeast := if 0 ≤ e then den * Nat.pow 10 e.toNat ≤ num
    else den ≤ num * Nat.pow 10 (-e).toNat
  if atLeast then e + 1 else e

/-- The point of the decimal grid with step `10 ^ exponent` that lies next to a number, reads back
as it and is the nearest such; of two equally near the greater. -/
def Binary.onGrid? (b : Binary) (exponent : Int) : Option Nat :=
  -- everything is measured in quarters of the last binary place
  let shift := b.exponent - 2
  let scale := Nat.pow 2 shift.toNat * Nat.pow 10 (-exponent).toNat
  let step := Nat.pow 2 (-shift).toNat * Nat.pow 10 exponent.toNat
  let value := 4 * b.significand * scale
  let above := value + 2 * scale
  let below :=
    if b.significand = 0x10000000000000 && -1074 < b.exponent then value - scale
    else value - 2 * scale
  let even := b.significand % 2 = 0
  let down := value / step
  let up := down + 1
  let downFits := if even then below ≤ down * step else below < down * step
  let upFits := if even then up * step ≤ above else up * step < above
  if down ≠ 0 && downFits then
    if upFits && up * step - value ≤ value - down * step then some up else some down
  else if upFits then some up else none

/-- The first hit on the grids with `count`, `count + 1`, … digits. -/
def Binary.search (b : Binary) (top : Int) (count : Nat) : Nat → Digits
  | 0 => ⟨0, 0⟩
  | tries + 1 =>
    match b.onGrid? (top - count) with
    | some digits => ⟨digits, top - count⟩
    | none => b.search top (count + 1) tries

/-- The shortest decimal number that reads back as a binary one. The next power of ten above it is
tried first, then grids of up to seventeen digits, which always hold one. -/
def Binary.shortest (b : Binary) : Digits :=
  let top :=
    if 0 ≤ b.exponent then magnitude (b.significand * Nat.pow 2 b.exponent.toNat) 1
    else magnitude b.significand (Nat.pow 2 (-b.exponent).toNat)
  b.search top 0 18

/-- A decimal number written without an exponent. -/
def Digits.plain (d : Digits) : String :=
  let written := (Nat.repr d.digits).toList
  if 0 ≤ d.exponent then String.ofList (written ++ List.replicate d.exponent.toNat '0')
  else
    let places := (-d.exponent).toNat
    let padded := List.replicate (places + 1 - written.length) '0' ++ written
    let whole := padded.length - places
    String.ofList (padded.take whole ++ '.' :: padded.drop whole)

/-- Writes a number with its sign, given how to write a positive finite one and zero. -/
def written (x : Float) (zero : String) (positive : Binary → String) : String :=
  let bits := x.toBits.toNat
  let rest := bits % 0x8000000000000000
  if 0x7ff0000000000000 < rest then "NaN"
  else
    let body :=
      if rest = 0x7ff0000000000000 then "inf"
      else if rest = 0 then zero
      else positive (Binary.ofBits rest)
    if 0x8000000000000000 ≤ bits then "-" ++ body else body

/-- The fewest digits that read back, without an exponent and without a needless fraction. -/
def plain (x : Float) : String :=
  written x "0" fun b => b.shortest.plain

/-- A number with two places, rounded from its exact value, a tie to the even digit. -/
def hundredths (x : Float) : String :=
  written x "0.00" fun b =>
    let n := if 0 ≤ b.exponent then 100 * b.significand * Nat.pow 2 b.exponent.toNat
      else roundQuotient (100 * b.significand) (Nat.pow 2 (-b.exponent).toNat)
    (Digits.mk n (-2)).plain

end CommandConsole.Decimal

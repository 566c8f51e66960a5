/-!
# CommandConsole.Decimal.Nearest — reading a decimal number as a binary one

`nearest` rounds a decimal number to the closest double-precision number, a tie to the one with an
even significand. All arithmetic before the last step is exact.

* `ofChars?` reads a number with optional sign, fraction and exponent, or `inf`, `infinity`, `nan`
  in any case.
-/

namespace CommandConsole.Decimal

/-- Rounds a quotient to the nearest natural number, a tie to the even one. -/
def roundQuotient (num den : Nat) : Nat :=
  let q := num / den
  let twice := 2 * (num % den)
  if twice < den then q
  else if den < twice then q + 1
  else q + q % 2

/-- The bits of the double-precision number that is nearest to the positive number `num / den`. -/
def nearestBits (num den : Nat) : Nat :=
  let top : Int := (num.log2 : Int) - den.log2
  let atLeast : Bool := if 0 ≤ top then den <<< top.toNat ≤ num else den ≤ num <<< (-top).toNat
  let exponent : Int := max (-1074) (if atLeast then top - 52 else top - 53)
  let significand :=
    if 0 ≤ exponent then roundQuotient num (den <<< exponent.toNat)
    else roundQuotient (num <<< (-exponent).toNat) den
  min ((exponent + 1074).toNat <<< 52 + significand) 0x7ff0000000000000

/-- The double-precision number nearest to `digits · 10 ^ exponent`. -/
def nearest (negative : Bool) (digits : Nat) (exponent : Int) : Float :=
  let size : Int := (Nat.repr digits).length + exponent
  let bits :=
    if digits = 0 || size < -330 then 0
    else if 310 < size then 0x7ff0000000000000
    else if 0 ≤ exponent then nearestBits (digits * Nat.pow 10 exponent.toNat) 1
    else nearestBits digits (Nat.pow 10 (-exponent).toNat)
  Float.ofBits (UInt64.ofNat (if negative then bits + 0x8000000000000000 else bits))

/-- Whether a character is an ASCII digit. -/
def isDigit (c : Char) : Bool := '0' ≤ c && c ≤ '9'

/-- The number that decimal digits write. -/
def ofDigits (digits : List Char) : Nat :=
  digits.foldl (fun n c => 10 * n + (c.toNat - 48)) 0

/-- The number that a non-empty list of digits writes. -/
def nat? (cs : List Char) : Option Nat :=
  if cs ≠ [] && cs.all isDigit then some (ofDigits cs) else none

/-- Takes a sign off the front; `true` for a minus. -/
def takeSign : List Char → Bool × List Char
  | '-' :: cs => (true, cs)
  | '+' :: cs => (false, cs)
  | cs => (false, cs)

/-- An exponent: nothing, or a letter e and a whole number. -/
def exponent? : List Char → Option Int
  | [] => some 0
  | c :: cs =>
    if c = 'e' || c = 'E' then
      let (negative, digits) := takeSign cs
      (nat? digits).map fun n => if negative then -(n : Int) else n
    else none

/-- A number without sign: digits with at most one point among them, then an exponent. -/
def unsigned? (negative : Bool) (cs : List Char) : Option Float :=
  let whole := cs.takeWhile isDigit
  let rest := cs.dropWhile isDigit
  let (fraction, rest) := match rest with
    | '.' :: rest => (rest.takeWhile isDigit, rest.dropWhile isDigit)
    | rest => ([], rest)
  if whole.isEmpty && fraction.isEmpty then none
  else (exponent? rest).map fun e =>
    nearest negative (ofDigits (whole ++ fraction)) (e - fraction.length)

/-- The number that a text writes, or infinity or no number by name. -/
def ofChars? (cs : List Char) : Option Float :=
  let (negative, digits) := takeSign cs
  let word := String.ofList (digits.map Char.toLower)
  if word = "inf" || word = "infinity" then
    some (Float.ofBits (if negative then 0xfff0000000000000 else 0x7ff0000000000000))
  else if word = "nan" then some (Float.ofBits 0x7ff8000000000000)
  else unsigned? negative digits

end CommandConsole.Decimal

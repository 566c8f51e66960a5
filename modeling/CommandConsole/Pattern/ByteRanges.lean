import CommandConsole.CharSet

/-!
# CommandConsole.Pattern.ByteRanges — sets of characters as bytes

In UTF-8 a character is one to four bytes. A range of code points falls into pieces such that the
bytes of a piece range independently of one another; `byteRanges` lists the pieces of a set.
-/

namespace CommandConsole.Pattern

/-- The bytes of a code point. -/
def bytesOf (n : Nat) : List Nat :=
  if n < 0x80 then [n]
  else if n < 0x800 then [0xc0 + n / 64, 0x80 + n % 64]
  else if n < 0x10000 then [0xe0 + n / 4096, 0x80 + n / 64 % 64, 0x80 + n % 64]
  else [0xf0 + n / 262144, 0x80 + n / 4096 % 64, 0x80 + n / 64 % 64, 0x80 + n % 64]

/-- The end of the first piece of a range, if the range falls into pieces: pieces have as many bytes
throughout and take all values of the bytes after one that varies. -/
def firstPiece? (first last : Nat) : Option Nat :=
  let byLength := [0x7f, 0x7ff, 0xffff].find? fun limit => first ≤ limit && limit < last
  let byBlock := [64, 4096, 262144].findSome? fun block =>
    if first / block = last / block then none
    else if first % block ≠ 0 then some ((first / block + 1) * block - 1)
    else if last % block ≠ block - 1 then some (last / block * block - 1)
    else none
  byLength.or (if last < 0x80 then none else byBlock)

/-- The pieces of a range of code points. -/
def pieces (first last : Nat) : List (List (Nat × Nat)) :=
  match firstPiece? first last with
  | none => [(bytesOf first).zip (bytesOf last)]
  | some cut =>
    if first ≤ cut ∧ cut < last then pieces first cut ++ pieces (cut + 1) last
    else [(bytesOf first).zip (bytesOf last)]
termination_by last - first

/-- The pieces of a set, in order; surrogates have no bytes. -/
def byteRanges (s : CharSet) : List (List (Nat × Nat)) :=
  s.ranges.flatMap fun (first, last) =>
    (if first ≤ 0xd7ff then pieces first (min last 0xd7ff) else []) ++
      (if 0xe000 ≤ last then pieces (max first 0xe000) last else [])

end CommandConsole.Pattern

import CommandConsole.Json.Lexeme
import Mathlib.Tactic.SplitIfs

/-!
# CommandConsole.Proofs.Quoting — strings are read as they were written

Each character is written so that one piece is read from it, whatever follows: a code unit for most
control characters, the character itself for all others. Either piece holds the character, as no
code unit that is written is half of a pair.

* `Piece.Holds`: what a piece holds; `exists_piece`: the piece of a character.
* `lexeme?_quote`: a string in its quotes is read as one lexeme, in front of anything.
-/

namespace CommandConsole.Json

/-! ### What pieces hold -/

/-- The piece holds this character, whatever pieces follow it. -/
def Piece.Holds (p : Piece) (c : Char) : Prop :=
  ∀ ps, assemble? (p :: ps) = (assemble? ps).map (c :: ·)

theorem Piece.holds_char (c : Char) : (char c).Holds c := fun _ => by rw [assemble?]

/-- A code unit below the halves of pairs holds its character. -/
theorem Piece.holds_unit {c : Char} (h : c.toNat < 0xD800) : (unit c.toNat).Holds c := by
  have hfirst : isFirstHalf c.toNat = false := by
    simp only [isFirstHalf, Bool.and_eq_false_iff, decide_eq_false_iff_not]
    omega
  have hsecond : isSecondHalf c.toNat = false := by
    simp only [isSecondHalf, Bool.and_eq_false_iff, decide_eq_false_iff_not]
    omega
  intro ps
  rcases ps with _ | ⟨p | b, ps⟩ <;> simp [assemble?, hfirst, hsecond, Char.ofNat_toNat]

/-! ### The piece of a character -/

theorem hexDigit?_hexLower {n : Nat} (h : n < 16) : hexDigit? (hexLower n) = some n := by
  revert n
  decide

/-- A code unit in four digits, of which the first two are zero. -/
theorem pieces?_hex {n : Nat} (h : n < 256) (cs : List Char) :
    pieces? .plain ('\\' :: 'u' :: '0' :: '0' :: hexLower (n / 16) :: hexLower (n % 16) :: cs) =
      (pieces? .plain cs).map fun (ps, rest) => (.unit n :: ps, rest) := by
  have hhigh : hexDigit? (hexLower (n / 16)) = some (n / 16) := hexDigit?_hexLower (by omega)
  have hlow : hexDigit? (hexLower (n % 16)) = some (n % 16) := hexDigit?_hexLower (by omega)
  have hzero : hexDigit? '0' = some 0 := rfl
  have hvalue : n / 16 * 16 + n % 16 = n := by omega
  simp [pieces?, hzero, hhigh, hlow, hvalue]

/-- A character that is written with a backslash and a letter. -/
theorem pieces?_escape {letter c : Char} (hu : letter ≠ 'u') (h : escape? letter = some c)
    (cs : List Char) : pieces? .plain ('\\' :: letter :: cs) =
      (pieces? .plain cs).map fun (ps, rest) => (.char c :: ps, rest) := by
  simp [pieces?, hu, h]

/-- A character as it is written is read as one piece that holds it. -/
theorem exists_piece (c : Char) : ∃ p : Piece, p.Holds c ∧ ∀ cs,
    pieces? .plain (encodeChar c ++ cs) =
      (pieces? .plain cs).map fun (ps, rest) => (p :: ps, rest) := by
  have escaped {letter : Char} (hu : letter ≠ 'u') (h : escape? letter = some c) :
      ∃ p : Piece, p.Holds c ∧ ∀ cs, pieces? .plain ('\\' :: letter :: cs) =
        (pieces? .plain cs).map fun (ps, rest) => (p :: ps, rest) :=
    ⟨.char c, Piece.holds_char c, pieces?_escape hu h⟩
  unfold encodeChar
  split_ifs with hquote hbackslash hb hf hn hr ht hcontrol
  · exact escaped (by decide) (by simp [hquote, escape?])
  · exact escaped (by decide) (by simp [hbackslash, escape?])
  · exact escaped (by decide) (by simp [hb, escape?])
  · exact escaped (by decide) (by simp [hf, escape?])
  · exact escaped (by decide) (by simp [hn, escape?])
  · exact escaped (by decide) (by simp [hr, escape?])
  · exact escaped (by decide) (by simp [ht, escape?])
  · have hlow : c.toNat < 32 := hcontrol
    exact ⟨.unit c.toNat, Piece.holds_unit (by omega), pieces?_hex (by omega)⟩
  · refine ⟨.char c, Piece.holds_char c, fun cs => ?_⟩
    show pieces? .plain (c :: cs) = _
    rw [pieces?, if_neg hquote, if_neg hbackslash, if_neg hcontrol]

/-- A text as it is written up to the closing quote is read as pieces that hold it. -/
theorem exists_pieces (text : List Char) : ∃ ps, assemble? ps = some text ∧ ∀ rest,
    pieces? .plain (text.flatMap encodeChar ++ '"' :: rest) = some (ps, rest) := by
  induction text with
  | nil => exact ⟨[], rfl, fun _ => rfl⟩
  | cons c text ih =>
    obtain ⟨p, hp, hchar⟩ := exists_piece c
    obtain ⟨ps, hps, htext⟩ := ih
    refine ⟨p :: ps, ?_, fun rest => ?_⟩
    · rw [hp, hps]
      rfl
    · rw [List.flatMap_cons, List.append_assoc, hchar, htext]
      rfl

/-- A string in its quotes is read as one lexeme, in front of anything. -/
theorem lexeme?_quote (s : String) (rest : List Char) :
    lexeme? '"' (s.toList.flatMap encodeChar ++ '"' :: rest) = some (.string (some s), rest) := by
  obtain ⟨ps, hps, htext⟩ := exists_pieces s.toList
  show (pieces? .plain _).map _ = _
  rw [htext]
  show some (Lexeme.string ((assemble? ps).map String.ofList), rest) = _
  rw [hps, Option.map_some, String.ofList_toList]

end CommandConsole.Json

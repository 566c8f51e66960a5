import CommandConsole.Proofs.Quoting

/-!
# CommandConsole.Proofs.Lexing — lexemes are read as they were written

What a text is cut into is found from its back: white space and lexemes can be put in front of
characters whose lexemes are known. An integer has to be followed by a character that ends it, a
comma here.

* `Reads`: the lexemes of characters, however many steps there are to spare.
* `Reads.spaces`, `Reads.quote`, `Reads.integer`: what can be put in front.
* `number?_toDigits`: digits are read as the number they write.
-/

namespace CommandConsole.Json

open Decimal (isDigit ofDigits)

/-- These are the lexemes of the characters, whatever steps there are to spare. -/
def Reads (cs : List Char) (lexemes : List Lexeme) : Prop :=
  ∀ steps, cs.length ≤ steps → lexemesWithin? steps cs = some lexemes

theorem lexemes?_ofList {cs : List Char} {lexemes : List Lexeme} (h : Reads cs lexemes) :
    lexemes? (String.ofList cs) = some lexemes := by
  unfold lexemes?
  rw [String.toList_ofList]
  exact h _ (Nat.le_refl _)

namespace Reads

variable {c : Char} {cs rest : List Char} {lexeme : Lexeme} {lexemes : List Lexeme}

theorem nil : Reads [] [] := fun steps _ => by cases steps <;> rfl

theorem space (hc : isSpace c = true) (h : Reads cs lexemes) : Reads (c :: cs) lexemes := by
  intro steps hsteps
  cases steps with
  | zero => cases hsteps
  | succ steps =>
    rw [lexemesWithin?, if_pos hc]
    exact h steps (Nat.le_of_succ_le_succ hsteps)

theorem spaces (h : Reads cs lexemes) (blank : List Char) (hblank : blank.all isSpace = true) :
    Reads (blank ++ cs) lexemes := by
  induction blank with
  | nil => exact h
  | cons c blank ih =>
    rw [List.all_cons, Bool.and_eq_true] at hblank
    exact (ih hblank.2).space hblank.1

theorem cons (hc : isSpace c = false) (hl : lexeme? c cs = some (lexeme, rest))
    (hlen : rest.length ≤ cs.length) (h : Reads rest lexemes) :
    Reads (c :: cs) (lexeme :: lexemes) := by
  intro steps hsteps
  cases steps with
  | zero => cases hsteps
  | succ steps =>
    rw [lexemesWithin?, if_neg (by simp [hc]), hl]
    dsimp only
    rw [h steps (Nat.le_trans hlen (Nat.le_of_succ_le_succ hsteps))]
    rfl

theorem openBrace (h : Reads cs lexemes) : Reads ('{' :: cs) (.openBrace :: lexemes) :=
  h.cons rfl rfl (Nat.le_refl _)

theorem closeBrace (h : Reads cs lexemes) : Reads ('}' :: cs) (.closeBrace :: lexemes) :=
  h.cons rfl rfl (Nat.le_refl _)

theorem colon (h : Reads cs lexemes) : Reads (':' :: cs) (.colon :: lexemes) :=
  h.cons rfl rfl (Nat.le_refl _)

theorem comma (h : Reads cs lexemes) : Reads (',' :: cs) (.comma :: lexemes) :=
  h.cons rfl rfl (Nat.le_refl _)

theorem quote (s : String) (h : Reads cs lexemes) :
    Reads (Json.quote s ++ cs) (.string (some s) :: lexemes) := by
  show Reads ('"' :: ((s.toList.flatMap encodeChar ++ ['"']) ++ cs)) _
  rw [List.append_assoc]
  refine h.cons rfl (lexeme?_quote s cs) ?_
  rw [List.length_append, List.singleton_append, List.length_cons]
  omega

end Reads

/-! ### Integers -/

theorem isDigit_of_mem_toDigits {n : Nat} {c : Char} (h : c ∈ Nat.toDigits 10 n) :
    isDigit c = true :=
  Nat.isDigit_of_mem_toDigits (by decide) (by decide) h

theorem ofDigits_toDigits (n : Nat) : ofDigits (Nat.toDigits 10 n) = n := by
  have h := Nat.ofDigitChars_ten_toDigits (n := n)
  rwa [Nat.ofDigitChars_eq_foldl] at h

/-- A number that is not zero is written without a zero in front. -/
theorem head?_toDigits {n : Nat} (h : n ≠ 0) : (Nat.toDigits 10 n).head? ≠ some '0' := by
  induction n using Nat.strongRecOn with
  | ind n ih =>
    rw [Nat.toDigits_eq_if (by decide)]
    split
    · next hn =>
      have hdigit : ∀ n < 10, n ≠ 0 → [n.digitChar].head? ≠ some '0' := by decide
      exact hdigit n hn h
    · next hn =>
      have hfront := ih (n / 10) (by omega) (by omega)
      cases hdigits : Nat.toDigits 10 (n / 10) with
      | nil => exact absurd hdigits Nat.toDigits_ne_nil
      | cons d ds =>
        rw [hdigits] at hfront
        exact hfront

/-- Digits in front of a comma are read as the number they write. -/
theorem number?_toDigits (negative : Bool) {n : Nat} (h : negative = true → n ≠ 0)
    (cs : List Char) : number? negative (Nat.toDigits 10 n ++ ',' :: cs) =
      some (.integer (if negative then -(n : Int) else n), ',' :: cs) := by
  have hdigits := fun c => isDigit_of_mem_toDigits (n := n) (c := c)
  have htake : (Nat.toDigits 10 n ++ ',' :: cs).takeWhile isDigit = Nat.toDigits 10 n := by
    rw [List.takeWhile_append_of_pos hdigits]
    exact List.append_nil _
  have hdrop : (Nat.toDigits 10 n ++ ',' :: cs).dropWhile isDigit = ',' :: cs := by
    rw [List.dropWhile_append_of_pos hdigits]
    rfl
  have hplain : ((Nat.toDigits 10 n).isEmpty || ((Nat.toDigits 10 n).head? = some '0' &&
      (Nat.toDigits 10 n).length ≠ 1)) = false := by
    by_cases hn : n = 0
    · subst hn
      rfl
    · simp [head?_toDigits hn, Nat.toDigits_ne_nil]
  have hinteger : (negative && decide (n = 0)) = false := by
    cases negative with
    | false => rfl
    | true => simpa using h rfl
  unfold number?
  rw [htake, hdrop]
  dsimp only
  rw [hplain, ofDigits_toDigits]
  show (if (negative && decide (n = 0)) = true then _ else _) = _
  rw [hinteger]
  rfl

theorem isSpace_of_isDigit {c : Char} (h : isDigit c = true) : isSpace c = false := by
  simp only [isSpace, Bool.or_eq_false_iff, beq_eq_false_iff_ne]
  refine ⟨⟨⟨?_, ?_⟩, ?_⟩, ?_⟩ <;> rintro rfl <;> exact absurd h (by decide)

theorem lexeme?_digit {c : Char} (h : isDigit c = true) (cs : List Char) :
    lexeme? c cs = number? false (c :: cs) := by
  unfold lexeme?
  split
  case h_12 => rw [if_pos h]
  all_goals exact absurd h (by decide)

namespace Reads

variable {cs : List Char} {lexemes : List Lexeme}

theorem natural (n : Nat) (h : Reads (',' :: cs) lexemes) :
    Reads (Nat.toDigits 10 n ++ ',' :: cs) (.integer n :: lexemes) := by
  have hnumber := number?_toDigits false (n := n) nofun cs
  have hdigits := fun c => isDigit_of_mem_toDigits (n := n) (c := c)
  cases hd : Nat.toDigits 10 n with
  | nil => exact absurd hd Nat.toDigits_ne_nil
  | cons d ds =>
    rw [hd] at hnumber hdigits
    have hdigit := hdigits d List.mem_cons_self
    exact h.cons (isSpace_of_isDigit hdigit) ((lexeme?_digit hdigit _).trans hnumber)
      (List.suffix_append ds (',' :: cs)).length_le

/-- An integer in front of a comma is read as one lexeme. -/
theorem integer (n : Int) (h : Reads (',' :: cs) lexemes) :
    Reads ((toString n).toList ++ ',' :: cs) (.integer n :: lexemes) := by
  rw [Int.toString_eq_repr, Int.repr_eq_if]
  split
  · next hn =>
    have hvalue : ((n.toNat : Nat) : Int) = n := Int.toNat_of_nonneg hn
    rw [Nat.toList_repr]
    exact hvalue ▸ h.natural n.toNat
  · next hn =>
    have hvalue : -(((-n).toNat : Nat) : Int) = n := by omega
    have hnumber := number?_toDigits true (n := (-n).toNat) (by omega) cs
    rw [String.toList_append, Nat.toList_repr]
    rw [if_pos rfl, hvalue] at hnumber
    exact h.cons rfl hnumber (List.suffix_append _ (',' :: cs)).length_le

end Reads

end CommandConsole.Json

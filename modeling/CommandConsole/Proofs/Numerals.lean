import Mathlib.Data.Nat.Digits.Defs
import CommandConsole.Builtins
import CommandConsole.Seconds.Binary
import CommandConsole.Proofs.Independence
import CommandConsole.Proofs.Resolving

/-!
# CommandConsole.Proofs.Numerals — numbers in a line

A whole number in a line is written in decimal digits, as many as one likes, with any zeros in
front. A font size holds the value of such a numeral only up to a bound; an amount of seconds can be
read from every numeral, however long it is.

* `Numeral`: the texts that write whole numbers; `Numeral.value`: the numbers that they write.
* `Builtins.fontSize?_of_numeral`: the numerals that are font sizes.
* `ReadsNumerals`: amounts of seconds that can be read from every numeral.
* `Signature.captures?_numeral`, `Registry.exists_resolve_numeral`: a word and a numeral behind it.
* `Console.IsBuiltin.resolve_fontSize`, `Console.IsBuiltin.resolve_delay`: lines for the font size
  and for a delay.
-/

namespace CommandConsole

/-- The text writes a whole number: it has decimal digits only, and at least one. -/
structure Numeral (text : String) : Prop where
  ne_nil : text.toList ≠ []
  isDigit : ∀ c ∈ text.toList, c.isDigit = true

instance (text : String) : Decidable (Numeral text) :=
  decidable_of_iff (text.toList ≠ [] ∧ text.toList.all Char.isDigit = true)
    ⟨fun h => ⟨h.1, List.all_eq_true.mp h.2⟩, fun h => ⟨h.ne_nil, List.all_eq_true.mpr h.isDigit⟩⟩

/-- The number that digits write, the last one for the units. -/
def Numeral.value (text : String) : Nat :=
  Nat.ofDigits 10 (text.toList.reverse.map fun c => c.toNat - '0'.toNat)

/-- The ten digits. -/
theorem mem_digits_of_isDigit {c : Char} (h : c.isDigit = true) : c ∈ "0123456789".toList := by
  have hall : ∀ n < 58, 48 ≤ n → Char.ofNat n ∈ "0123456789".toList := by decide
  have hbounds : '0'.toNat ≤ c.toNat ∧ c.toNat ≤ '9'.toNat := by
    simpa [Char.isDigit, UInt32.le_iff_toNat_le] using h
  rw [← Char.ofNat_toNat c]
  exact hall _ (Nat.lt_succ_of_le hbounds.2) hbounds.1

namespace Decimal

theorem ofDigits_append_singleton (cs : List Char) (c : Char) :
    ofDigits (cs ++ [c]) = 10 * ofDigits cs + (c.toNat - 48) := by
  rw [ofDigits, List.foldl_append]
  rfl

/-- Digits that are read from the front write what their places say. -/
theorem ofDigits_eq (cs : List Char) :
    ofDigits cs = Nat.ofDigits 10 (cs.reverse.map fun c => c.toNat - '0'.toNat) := by
  induction cs using List.reverseRecOn with
  | nil => rfl
  | append_singleton cs c ih =>
    rw [ofDigits_append_singleton, ih, List.reverse_append, List.reverse_singleton,
      List.singleton_append, List.map_cons, Nat.ofDigits_cons, Nat.add_comm]
    rfl

end Decimal

namespace Numeral

variable {text : String} (h : Numeral text)

include h

theorem not_space : ' ' ∉ text.toList := fun hm => absurd (h.isDigit _ hm) (by decide)

theorem not_lineBreak : '\n' ∉ text.toList := fun hm => absurd (h.isDigit _ hm) (by decide)

theorem endsSolid : Text.EndsSolid text :=
  ⟨_, List.getLast?_eq_some_getLast h.ne_nil,
    Text.isBlank_of_isDigit (h.isDigit _ (List.getLast_mem h.ne_nil))⟩

theorem nat?_eq : Decimal.nat? text.toList = some (value text) := by
  have hall : text.toList.all Decimal.isDigit = true := List.all_eq_true.mpr h.isDigit
  unfold Decimal.nat?
  rw [if_pos (by simp [h.ne_nil, hall]), Decimal.ofDigits_eq]
  rfl

end Numeral

/-- A numeral is a font size if its value can be saved. -/
theorem Builtins.fontSize?_of_numeral {text : String} (h : Numeral text) :
    fontSize? text =
      if Numeral.value text ≤ 2147483647 then some (Numeral.value text : Int) else none := by
  unfold fontSize?
  rw [h.nat?_eq]

/-! ### Seconds -/

/-- Amounts that can be read from every numeral. -/
class ReadsNumerals (τ : Type) [Seconds τ] : Prop where
  isSome_read? {text : String} : Numeral text → (Seconds.read? (τ := τ) text).isSome

instance : ReadsNumerals Rat where
  isSome_read? {text} h := by
    show ((Decimal.nat? text.toList).map fun n => (n : Rat)).isSome
    rw [h.nat?_eq]
    rfl

/-- A digit is no letter, so a numeral is not the name of a number. -/
theorem Numeral.lower_ne {text : String} (h : Numeral text) (word : String) {first : Char}
    (hword : word.toList.head? = some first) (hfirst : first ∉ "0123456789".toList) :
    String.ofList (text.toList.map Char.toLower) ≠ word := by
  have hdigits : "0123456789".toList.all (fun c => c.toLower == c) = true := by decide
  rintro rfl
  obtain ⟨c, cs, hc⟩ := List.exists_cons_of_ne_nil h.ne_nil
  have hdigit := mem_digits_of_isDigit (h.isDigit c (hc ▸ List.mem_cons_self))
  have hlower : c.toLower = c := beq_iff_eq.mp (List.all_eq_true.mp hdigits c hdigit)
  rw [String.toList_ofList, hc, List.map_cons, List.head?_cons, hlower] at hword
  exact hfirst (Option.some.inj hword ▸ hdigit)

/-- A double-precision number is read from every numeral; one that is too long gives infinity. -/
instance : ReadsNumerals Float where
  isSome_read? {text} h := by
    show (Decimal.ofChars? text.toList).isSome
    obtain ⟨c, cs, hc⟩ := List.exists_cons_of_ne_nil h.ne_nil
    have hdigit := mem_digits_of_isDigit (h.isDigit c (hc ▸ List.mem_cons_self))
    have hsign : Decimal.takeSign text.toList = (false, text.toList) := by
      rw [hc]
      unfold Decimal.takeSign
      split
      · next heq => exact absurd ((List.cons.inj heq).1 ▸ hdigit) (by decide)
      · next heq => exact absurd ((List.cons.inj heq).1 ▸ hdigit) (by decide)
      · rfl
    have hinf := h.lower_ne "inf" rfl (by decide)
    have hinfinity := h.lower_ne "infinity" rfl (by decide)
    have hnan := h.lower_ne "nan" rfl (by decide)
    have htake : text.toList.takeWhile Decimal.isDigit = text.toList :=
      List.takeWhile_eq_self_iff.mpr h.isDigit
    have hdrop : text.toList.dropWhile Decimal.isDigit = [] :=
      List.dropWhile_eq_nil_iff.mpr h.isDigit
    unfold Decimal.ofChars? Decimal.unsigned?
    rw [hsign]
    simp [hinf, hinfinity, hnan, htake, hdrop, h.ne_nil, Decimal.exponent?]

/-! ### Lines of a word and a numeral -/

/-- A line of one word and a numeral has the signature of the word and a whole number. -/
theorem Signature.captures?_numeral {raw word name text : String} (hword : ' ' ∉ word.toList)
    (h : Numeral text) :
    (ofTokens raw [.word word, .value ⟨name, .int⟩]).captures? (word ++ " " ++ text) =
      some [text] := by
  refine captures?_of_not_space (by simp) ⟨[word, text], ?_, ?_⟩ ?_ ?_
  · exact filling_word.mpr ⟨_, rfl, filling_value.mpr
      ⟨text, [], [], rfl, rfl, ⟨h.ne_nil, h.isDigit⟩, filling_nil.mpr ⟨rfl, rfl⟩⟩⟩
  · exact String.toList_inj.mp (by simp)
  · intro word' hmem
    obtain rfl : word' = word := by simpa using hmem
    exact hword
  · exact List.forall_mem_singleton.mpr h.not_space

/-- How a line of a word and a numeral starts, up to its first digit. -/
def numeralFronts (word : String) : List (List Char) :=
  "0123456789".toList.map fun digit => (word ++ " ").toList ++ [digit]

theorem Numeral.exists_front {text : String} (h : Numeral text) (word : String) :
    ∃ front ∈ numeralFronts word, ∃ rest, (word ++ " " ++ text).toList = front ++ rest := by
  obtain ⟨digit, rest, htext⟩ := List.exists_cons_of_ne_nil h.ne_nil
  have hdigit := mem_digits_of_isDigit (h.isDigit digit (htext ▸ List.mem_cons_self))
  refine ⟨_, List.mem_map_of_mem hdigit, rest, ?_⟩
  rw [String.toList_append, htext, List.append_assoc]
  rfl

/-- A line of a word and a numeral is resolved to the signature of the word and a whole number, if
the first digit rules out everything in front of it. -/
theorem Registry.exists_resolve_numeral {η : Type} {r : Registry η}
    {before after : List (CommandDecl η)} {d : CommandDecl η}
    {earlier later : List (SignatureDecl η)} {sd : SignatureDecl η} {word name raw text : String}
    (hr : build (before ++ d :: after) = .ok r)
    (hsignatures : d.signatures = earlier ++ sd :: later)
    (hfronts : ∀ front ∈ numeralFronts word, Command.helpRefuses front d.trimmedName = true ∧
      (∀ o ∈ before.map (·.outline), o.refuses front = true) ∧
      ∀ g ∈ earlier.map (·.grammar), g.refuses front = true)
    (hgrammar : sd.grammar.compile =
      .ok (.ofTokens raw [.word word, .value ⟨name, .int⟩]))
    (hword : ' ' ∉ word.toList) (h : Numeral text) :
    ∃ command binding, r.resolve (word ++ " " ++ text) = some (.invoke command binding [text]) ∧
      binding.signature = .ofTokens raw [.word word, .value ⟨name, .int⟩] ∧
      sd.handler = some binding.handler := by
  obtain ⟨front, hfront, rest, hline⟩ := h.exists_front word
  obtain ⟨hhelp, hbefore, hearlier⟩ := hfronts front hfront
  exact exists_resolve_of_declared hr hbefore hhelp hsignatures hearlier hgrammar hline
    (Signature.captures?_numeral hword h)

/-- Such a line has no blanks at its ends. -/
theorem Numeral.trim_line {text : String} (h : Numeral text) (word : String) {first : Char}
    (hfirst : word.toList.head? = some first) (hsolid : Text.isBlank first = false) :
    Text.trim (word ++ " " ++ text) = word ++ " " ++ text := by
  refine Text.trim_eq_self (c := first) ?_ hsolid (h.endsSolid.behind _)
  rw [String.append_assoc, String.toList_append, List.head?_append, hfirst]
  rfl

namespace Builtins

/-- The commands in front of the one for the font size. -/
def beforeFontSize : List (CommandDecl (Handler τ)) :=
  [help, print, clear, showPanel, hidePanel, aliases, events]

/-- The first digit of a font size rules out the commands in front, help and a reset. -/
theorem fronts_fontSize : ∀ front ∈ numeralFronts "fontsize",
    Command.helpRefuses front (fontSize : CommandDecl (Handler τ)).trimmedName = true ∧
      (∀ o ∈ (beforeFontSize : List (CommandDecl (Handler τ))).map (·.outline),
        o.refuses front = true) ∧
      ∀ g ∈ [Grammar.written "fontsize reset"], g.refuses front = true := by
  -- what the handlers act on makes no difference to the names and the grammars
  show ∀ front ∈ numeralFronts "fontsize",
    Command.helpRefuses front (fontSize : CommandDecl (Handler Unit)).trimmedName = true ∧
      (∀ o ∈ (beforeFontSize : List (CommandDecl (Handler Unit))).map (·.outline),
        o.refuses front = true) ∧
      ∀ g ∈ [Grammar.written "fontsize reset"], g.refuses front = true
  decide +kernel

/-- The first digit of a delay rules out the commands in front and help. -/
theorem fronts_delay [Seconds τ] : ∀ front ∈ numeralFronts "delay",
    Command.helpRefuses front (delay : CommandDecl (Handler τ)).trimmedName = true ∧
      (∀ o ∈ (beforeFontSize ++ [fontSize] : List (CommandDecl (Handler τ))).map (·.outline),
        o.refuses front = true) ∧
      ∀ g ∈ ([] : List Grammar), g.refuses front = true := by
  show ∀ front ∈ numeralFronts "delay",
    Command.helpRefuses front (Text.trim "delay") = true ∧
      (∀ o ∈ (beforeFontSize ++ [fontSize] : List (CommandDecl (Handler Unit))).map (·.outline),
        o.refuses front = true) ∧
      ∀ g ∈ ([] : List Grammar), g.refuses front = true
  decide +kernel

theorem compile_fontSize : Signature.compile "fontsize <fs:i>" =
    .ok (.ofTokens "fontsize <fs:i>" [.word "fontsize", .value ⟨"fs", .int⟩]) := by
  decide +kernel

theorem compile_delay : Signature.compile "delay <seconds:i>" =
    .ok (.ofTokens "delay <seconds:i>" [.word "delay", .value ⟨"seconds", .int⟩]) := by
  decide +kernel

end Builtins

namespace Console

open Builtins

variable {τ : Type} [Seconds τ] {c : Console τ} {text : String}

theorem IsBuiltin.build_fontSize (hc : c.IsBuiltin) :
    Registry.build (beforeFontSize ++ fontSize :: [delay, exec]) = .ok c.registry := hc

/-- A line that sets the font size to a numeral. -/
theorem IsBuiltin.resolve_fontSize (hc : c.IsBuiltin) (h : Numeral text) : ∃ command binding,
    c.registry.resolve ("fontsize " ++ text) = some (.invoke command binding [text]) ∧
      binding.handler [text] =
        (parsed fontSize? text).bind fun size => .doing (.setFontSize size) := by
  have hsignatures : (fontSize : CommandDecl (Handler τ)).signatures = [_] ++ _ :: [] := rfl
  obtain ⟨command, binding, hresolve, -, hhandler⟩ :=
    Registry.exists_resolve_numeral hc.build_fontSize hsignatures fronts_fontSize
      compile_fontSize (by decide) h
  exact ⟨command, binding, hresolve, by rw [← Option.some.inj hhandler]; rfl⟩

/-- A line for a delay by a numeral. -/
theorem IsBuiltin.resolve_delay (hc : c.IsBuiltin) (h : Numeral text) : ∃ command binding,
    c.registry.resolve ("delay " ++ text) = some (.invoke command binding [text]) ∧
      delayGrammar.compile = .ok binding.signature ∧
      binding.handler [text] =
        (parsed Seconds.read? text).bind fun amount => .doing (.requestDelay amount) := by
  have hbuild : Registry.build ((beforeFontSize ++ [fontSize]) ++ delay :: [exec]) =
      .ok c.registry := hc
  have hsignatures : (delay : CommandDecl (Handler τ)).signatures = [] ++ _ :: [] := rfl
  obtain ⟨command, binding, hresolve, hsignature, hhandler⟩ :=
    Registry.exists_resolve_numeral hbuild hsignatures fronts_delay compile_delay (by decide) h
  exact ⟨command, binding, hresolve, hsignature ▸ compile_delay,
    by rw [← Option.some.inj hhandler]; rfl⟩

/-- A line for a delay by a numeral asks for the amount that the numeral writes. -/
theorem IsBuiltin.asksFor_numeral (hc : c.IsBuiltin) (h : Numeral text) {amount : τ}
    (hread : Seconds.read? text = some amount) : c.AsksFor ("delay " ++ text) amount := by
  obtain ⟨command, binding, hresolve, hgrammar, -⟩ := hc.resolve_delay h
  have htrim : Text.trim ("delay " ++ text) = "delay " ++ text :=
    h.trim_line "delay" rfl (by decide)
  exact ⟨[text], text, ⟨command, binding, htrim.symm ▸ hresolve, hgrammar⟩, rfl, hread⟩

end Console

end CommandConsole

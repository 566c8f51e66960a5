import CommandConsole.Proofs.Grammar
import CommandConsole.Proofs.Precedence
import Mathlib.Data.List.Forall2
import Mathlib.Data.List.TakeWhile

/-!
# CommandConsole.Proofs.Accepting — which texts are signatures

A text is a signature if it has a word between blanks and each of these is a word of the signature
or a placeholder. Otherwise the error names the first that is neither. The pattern that a signature
writes can always be read, with one group for each placeholder.

* `SignatureToken.Denotes`: the form of words and placeholders, apart from how they are read.
* `SignatureToken.read?_eq_some_iff`: reading a token finds its form.
* `Signature.readTokens_eq_ok_iff`, `Signature.readTokens_eq_error_iff`: tokens in turn.
* `Signature.compile_accepts`: texts that are signatures, what they make, and the error otherwise.
-/

namespace CommandConsole

/-! ### Tokens -/

/-- The ASCII letters and digits, the underscore and the dash. -/
def IsWordCharacter (c : Char) : Prop :=
  ('A' ≤ c ∧ c ≤ 'Z') ∨ ('a' ≤ c ∧ c ≤ 'z') ∨ ('0' ≤ c ∧ c ≤ '9') ∨ c = '_' ∨ c = '-'

theorem isWordPart_iff {c : Char} : isWordPart c = true ↔ IsWordCharacter c := by
  have between (lo hi : Char) : (decide (lo.val ≤ c.val) && decide (c.val ≤ hi.val)) = true ↔
      lo ≤ c ∧ c ≤ hi := by
    rw [Bool.and_eq_true, decide_eq_true_iff, decide_eq_true_iff]
    rfl
  have upper : c.isUpper = true ↔ 'A' ≤ c ∧ c ≤ 'Z' := decide_eq_true_iff
  have lower : c.isLower = true ↔ 'a' ≤ c ∧ c ≤ 'z' := between 'a' 'z'
  have digit : c.isDigit = true ↔ '0' ≤ c ∧ c ≤ '9' := between '0' '9'
  have letter : c.isAlphanum = ((c.isUpper || c.isLower) || c.isDigit) := rfl
  simp only [isWordPart, letter, Bool.or_eq_true, beq_iff_eq, upper, lower, digit,
    IsWordCharacter, or_assoc]

theorem isNamePart_iff {c : Char} : isNamePart c = true ↔ c ≠ ':' ∧ c ≠ '<' ∧ c ≠ '>' := by
  simp [isNamePart, and_assoc]

namespace PlaceholderKind

theorem ofCode?_code (kind : PlaceholderKind) : ofCode? kind.code = some kind := by
  cases kind <;> rfl

end PlaceholderKind

namespace SignatureToken

/-- The text has the form of the token: a word, or a placeholder with a name, a colon and the letter
of its kind between angle brackets. -/
inductive Denotes : String → SignatureToken → Prop
  | word {text : String} : text ≠ "" → (∀ c ∈ text.toList, IsWordCharacter c) →
      Denotes text (.word text)
  | value {name : String} (kind : PlaceholderKind) : name ≠ "" →
      (∀ c ∈ name.toList, c ≠ ':' ∧ c ≠ '<' ∧ c ≠ '>') →
      Denotes ("<" ++ name ++ ":" ++ String.ofList [kind.code] ++ ">") (.value ⟨name, kind⟩)

variable {text : String} {token : SignatureToken}

theorem of_placeholder? {inner : List Char} {p : Placeholder} (h : placeholder? inner = some p) :
    p.name ≠ "" ∧ ∀ c ∈ p.name.toList, isNamePart c = true := by
  unfold placeholder? at h
  dsimp only at h
  split at h
  · split at h
    · cases h
    · next hne =>
      obtain ⟨kind, -, rfl⟩ := Option.map_eq_some_iff.mp h
      refine ⟨fun hempty => hne ?_, fun c hc => ?_⟩
      · rw [← String.toList_inj, String.toList_ofList] at hempty
        rw [hempty]
        rfl
      · rw [String.toList_ofList] at hc
        exact List.mem_takeWhile_imp hc
  · cases h

theorem placeholder?_of_name {name : String} (kind : PlaceholderKind) (hne : name ≠ "")
    (h : ∀ c ∈ name.toList, isNamePart c = true) :
    placeholder? (name.toList ++ [':', kind.code]) = some ⟨name, kind⟩ := by
  have hcolon : ¬ isNamePart ':' = true := by decide
  have hname : (name.toList ++ [':', kind.code]).takeWhile isNamePart = name.toList := by
    rw [List.takeWhile_append_of_pos h, List.takeWhile_cons_of_neg hcolon, List.append_nil]
  have hrest : (name.toList ++ [':', kind.code]).dropWhile isNamePart = [':', kind.code] := by
    rw [List.dropWhile_append_of_pos h, List.dropWhile_cons_of_neg hcolon]
  unfold placeholder?
  dsimp only
  simp only [hname, hrest]
  rw [if_neg (by simpa using hne), PlaceholderKind.ofCode?_code, Option.map_some,
    String.ofList_toList]

theorem denotes_of_read? (h : read? text = some token) : Denotes text token := by
  have hwritten := written_of_read? h
  have hread := h
  unfold read? at h
  split at h
  · cases h
  · next c cs htext =>
    split at h
    · next hword =>
      cases h
      refine .word ?_ fun d hd => isWordPart_iff.mp (isWordPart_of_read? hread d hd)
      rintro rfl
      cases htext
    · split at h
      · obtain ⟨p, hp, rfl⟩ := Option.map_eq_some_iff.mp h
        obtain ⟨hne, hname⟩ := of_placeholder? hp
        rw [← hwritten]
        exact .value p.kind hne fun d hd => isNamePart_iff.mp (hname d hd)
      · cases h

theorem Denotes.read?_eq (h : Denotes text token) : read? text = some token := by
  cases h with
  | word hne hword =>
    have hparts : text.toList.all isWordPart = true :=
      List.all_eq_true.mpr fun c hc => isWordPart_iff.mpr (hword c hc)
    unfold read?
    split
    · next hempty => exact absurd (String.toList_eq_nil_iff.mp hempty) hne
    · next c cs htext => rw [if_pos (htext ▸ hparts)]
  | @value name kind hne hname =>
    have htext : ("<" ++ name ++ ":" ++ String.ofList [kind.code] ++ ">").toList =
        '<' :: ((name.toList ++ [':', kind.code]) ++ ['>']) := by simp
    have hinner := placeholder?_of_name kind hne fun c hc => isNamePart_iff.mpr (hname c hc)
    have hopen : ¬ ('<' :: ((name.toList ++ [':', kind.code]) ++ ['>'])).all isWordPart = true := by
      rw [List.all_cons]
      simp [show isWordPart '<' = false from by decide]
    unfold read?
    rw [htext]
    dsimp only
    rw [if_neg hopen, if_pos (by simp), List.dropLast_concat, hinner, Option.map_some]

/-- **Tokens**: reading a token finds its form. -/
theorem read?_eq_some_iff : read? text = some token ↔ Denotes text token :=
  ⟨denotes_of_read?, Denotes.read?_eq⟩

end SignatureToken

namespace Signature

open SignatureToken Pattern

variable {raw text : String} {texts : List String} {tokens : List SignatureToken}
  {signature : Signature}

/-! ### Tokens in turn -/

theorem readTokens_eq_ok_iff :
    readTokens texts = .ok tokens ↔ List.Forall₂ Denotes texts tokens := by
  induction texts generalizing tokens with
  | nil => cases tokens <;> simp [readTokens]
  | cons first texts ih =>
    rw [List.forall₂_cons_left_iff, readTokens]
    simp only [← read?_eq_some_iff, ← ih]
    cases hfirst : read? first with
    | none => simp
    | some token =>
      cases hlater : readTokens texts with
      | error text => simp [Except.map]
      | ok later => simp [Except.map, eq_comm]

/-- Reading tokens stops at the first text that has not the form of one. -/
theorem readTokens_eq_error_iff : readTokens texts = .error text ↔
    ∃ i, FirstAt (fun text => ¬ ∃ token, Denotes text token) texts i text := by
  have hfind : readTokens texts = .error text ↔
      texts.find? (fun text => (read? text).isNone) = some text := by
    induction texts with
    | nil => simp [readTokens]
    | cons first texts ih =>
      rw [List.find?_cons, readTokens]
      cases hfirst : read? first with
      | none => simp
      | some token =>
        rw [Option.isNone_some]
        refine Iff.trans ?_ ih
        cases readTokens texts <;> simp [Except.map]
  have hnone (text : String) : (read? text).isNone = true ↔ ¬ ∃ token, Denotes text token := by
    simp only [← read?_eq_some_iff, ← Option.isSome_iff_exists]
    cases read? text <;> simp
  simp only [hfind, find?_eq_some_iff_firstAt, hnone]

theorem readTokens_eq_nil_iff : readTokens texts = .ok [] ↔ texts = [] := by
  rw [readTokens_eq_ok_iff, List.forall₂_nil_right_iff]

/-- Texts that all have the form of a token can be read. -/
theorem exists_readTokens_iff :
    (∃ tokens, readTokens texts = .ok tokens) ↔ ∀ text ∈ texts, ∃ token, Denotes text token := by
  simp only [readTokens_eq_ok_iff]
  exact exists_forall₂_iff

/-! ### Whole texts -/

theorem compile_eq_ok_iff : compile raw = .ok signature ↔
    ∃ tokens, readTokens (Text.words raw) = .ok tokens ∧ tokens ≠ [] ∧
      signature = ofTokens raw tokens := by
  refine ⟨exists_of_compile, ?_⟩
  rintro ⟨tokens, hread, hne, rfl⟩
  unfold compile
  rw [hread]
  cases tokens with
  | nil => exact absurd rfl hne
  | cons token tokens => rfl

theorem compile_eq_error_iff {e : ConsoleError} : compile raw = .error e ↔
    (readTokens (Text.words raw) = .ok [] ∧ e = .compile raw "") ∨
      ∃ text, readTokens (Text.words raw) = .error text ∧ e = .compile raw text := by
  unfold compile
  split
  · next htext => simp [htext, eq_comm]
  · next hread => simp [hread, eq_comm]
  · next tokens hne hread =>
    have hne : tokens ≠ [] := hne
    simp [hread, hne]

/-! ### The main statement -/

/-- **Accepted texts.** A text is a signature if and only if there is something between its blanks
and all of it has the form of a token. The signature has the placeholders of these tokens in order,
gives as many values, and is shown as the tokens with a space between each two. Its pattern can
always be read and has one group for each placeholder; nothing but its size can be held against it.
Any other text is refused with the first part between its blanks that has not the form of a token,
or with the empty text if there is none. -/
theorem compile_accepts (raw : String) :
    ((∃ signature, compile raw = .ok signature) ↔
        Text.words raw ≠ [] ∧ ∀ text ∈ Text.words raw, ∃ token, Denotes text token) ∧
      (∀ signature, compile raw = .ok signature → ∃ tokens,
        List.Forall₂ Denotes (Text.words raw) tokens ∧
        signature.raw = raw ∧
        signature.placeholders = tokens.filterMap (·.placeholder) ∧
        signature.arity = signature.placeholders.length ∧
        signature.display = " ".intercalate (tokens.map (·.display)) ∧
        signature.matcher = "^" ++ " ".intercalate (tokens.map (·.patternText)) ++ "$" ∧
        ∃ e, Expr.read signature.matcher.toList = .ok e ∧ e.toPattern.arity = signature.arity ∧
          Pattern.read signature.matcher.toList =
            if fits e then .ok e.toPattern else .error .tooLarge) ∧
      ∀ e, compile raw = .error e ↔ (Text.words raw = [] ∧ e = .compile raw "") ∨
        ∃ text, (∃ i, FirstAt (fun text => ¬ ∃ token, Denotes text token)
          (Text.words raw) i text) ∧ e = .compile raw text := by
  refine ⟨?_, fun signature h => ?_, fun e => ?_⟩
  · rw [← exists_readTokens_iff, Ne, ← readTokens_eq_nil_iff]
    simp only [compile_eq_ok_iff]
    constructor
    · rintro ⟨_, tokens, hread, hne, rfl⟩
      exact ⟨fun hnil => hne (Except.ok.inj (hread.symm.trans hnil)), tokens, hread⟩
    · rintro ⟨hne, tokens, hread⟩
      exact ⟨_, tokens, hread, fun hnil => hne (hnil ▸ hread), rfl⟩
  · obtain ⟨tokens, hread, hne, rfl⟩ := exists_of_compile h
    have hdenotes := readTokens_eq_ok_iff.mp hread
    obtain ⟨e, hexpr, hcloses⟩ := exists_closes raw hne fun token hm => by
      obtain ⟨text, -, htext⟩ := exists_of_forall₂ hdenotes hm
      exact ⟨text, htext.read?_eq⟩
    refine ⟨tokens, hdenotes, rfl, rfl, rfl, rfl, rfl, _, hexpr, ?_, read_of_read hexpr⟩
    exact (Nat.zero_max _).trans (hcloses.arity_eq 0)
  · rw [compile_eq_error_iff, readTokens_eq_nil_iff]
    simp only [readTokens_eq_error_iff]

/-- A text that is accepted, and one with two faults, of which the first is reported. -/
theorem compile_accepts_mixed :
    let faulty := "say <x|y:s> <n:q> (no) "
    (∃ signature, compile " scale\t<x|y:f>  <ok:b>" = .ok signature ∧
      signature.placeholders = [⟨"x|y", .float⟩, ⟨"ok", .yesNo⟩] ∧ signature.arity = 2 ∧
      signature.display = "scale <x|y|float> <ok|y/n>" ∧
      ∃ e, Expr.read signature.matcher.toList = .ok e ∧ e.toPattern.arity = 2) ∧
      FirstAt (fun text => ¬ ∃ token, Denotes text token) (Text.words faulty) 2 "<n:q>" ∧
      compile faulty = .error (.compile faulty "<n:q>") := by
  intro faulty
  obtain ⟨signature, hsignature, hplaceholders, hdisplay⟩ : ∃ signature,
      compile " scale\t<x|y:f>  <ok:b>" = .ok signature ∧
        signature.placeholders = [⟨"x|y", .float⟩, ⟨"ok", .yesNo⟩] ∧
        signature.display = "scale <x|y|float> <ok|y/n>" :=
    ⟨_, rfl, by decide +kernel, by decide +kernel⟩
  obtain ⟨-, haccepted, -⟩ := compile_accepts " scale\t<x|y:f>  <ok:b>"
  obtain ⟨-, -, -, -, harity, -, -, e, hread, hgroups, -⟩ := haccepted signature hsignature
  rw [hplaceholders] at harity
  obtain ⟨-, -, hrefused⟩ := compile_accepts faulty
  have hfirst : FirstAt (fun text => ¬ ∃ token, Denotes text token) (Text.words faulty) 2
      "<n:q>" := by
    simp only [firstAt_iff, ← read?_eq_some_iff, ← Option.isSome_iff_exists]
    exact ⟨["say", "<x|y:s>"], ["(no)"], by decide +kernel, rfl, by decide +kernel,
      by decide +kernel⟩
  exact ⟨⟨signature, hsignature, hplaceholders, harity, hdisplay, e, hread,
    hgroups.trans harity⟩, hfirst, (hrefused _).mpr (.inr ⟨_, ⟨_, hfirst⟩, rfl⟩)⟩

end Signature

end CommandConsole

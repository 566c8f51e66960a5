import CommandConsole.Proofs.Reading
import CommandConsole.Signature

/-!
# CommandConsole.Proofs.Filling — the fillings of a written signature

A filling of a signature is a line that is made of its tokens, with values in place of their
placeholders and one space between each two. A line can have several fillings, as a text can contain
spaces and words. The template of the signature finds the filling with the longest first value, of
those the one with the longest second value, and so on.

* `PlaceholderKind.Takes`, `Fills`: values and fillings, without any matching.
* `PlaceholderKind.readsLongest_steps`: the steps of a kind read its longest value.
* `Answers`: what a template gives for a line, compared with all fillings.
* `Answers.lineTemplate`: the template of a signature.
* `Filling.eq_of_not_space`: values without spaces have one filling only.
-/

namespace CommandConsole

/-! ### Values -/

namespace PlaceholderKind

/-- The values of a kind: digits; digits, any number of points and any number of digits; characters
on one line; one of two letters. -/
def Takes : PlaceholderKind → List Char → Prop
  | int, cs => cs ≠ [] ∧ ∀ c ∈ cs, c.isDigit = true
  | float, cs => ∃ whole points decimals, cs = whole ++ (points ++ decimals) ∧
    (whole ≠ [] ∧ ∀ c ∈ whole, c.isDigit = true) ∧ (∀ c ∈ points, c = '.') ∧
    ∀ c ∈ decimals, c.isDigit = true
  | text, cs => cs ≠ [] ∧ ∀ c ∈ cs, c ≠ '\n'
  | yesNo, cs => cs = ['y'] ∨ cs = ['n']

/-- The letter that stands for a kind. -/
def code : PlaceholderKind → Char
  | int => 'i'
  | float => 'f'
  | text => 's'
  | yesNo => 'b'

/-- No value goes over the end of a line. -/
theorem Takes.not_lineBreak {kind : PlaceholderKind} {cs : List Char} (h : kind.Takes cs) :
    '\n' ∉ cs := by
  have digits {cs : List Char} (h : ∀ c ∈ cs, c.isDigit = true) : '\n' ∉ cs := fun hm =>
    absurd (h '\n' hm) (by decide)
  cases kind with
  | int => exact digits h.2
  | float =>
    obtain ⟨whole, points, decimals, rfl, ⟨-, hwhole⟩, hpoints, hdecimals⟩ := h
    have hpoint : '\n' ∉ points := fun hm => absurd (hpoints '\n' hm) (by decide)
    simp [digits hwhole, hpoint, digits hdecimals]
  | text => exact fun hm => h.2 '\n' hm rfl
  | yesNo => rcases h with rfl | rfl <;> decide

theorem code_of_ofCode? {code : Char} {kind : PlaceholderKind} (h : ofCode? code = some kind) :
    kind.code = code := by
  unfold ofCode? at h
  split at h <;> cases h <;> rfl

end PlaceholderKind

theorem CharSet.contains_asciiDigit {c : Char} : asciiDigit.contains c = c.isDigit := by
  have bounds : ('0'.toNat ≤ c.toNat ∧ c.toNat ≤ '9'.toNat) ↔ (c.val ≥ 48 ∧ c.val ≤ 57) := by
    rw [ge_iff_le, UInt32.le_iff_toNat_le, UInt32.le_iff_toNat_le]
    rfl
  rw [asciiDigit, contains_range, Char.isDigit, ← Bool.decide_and]
  exact decide_eq_decide.mpr bounds

/-- Where a list starts with a longer and with a shorter part, the longer one goes on with what
follows the shorter one. -/
theorem exists_of_shorter {α : Type} {front rest other more : List α}
    (h : front ++ rest = other ++ more) (hlt : other.length < front.length) :
    ∃ c front', front = other ++ c :: front' ∧ more = c :: (front' ++ rest) := by
  rcases List.append_eq_append_iff.mp h with ⟨as, rfl, -⟩ | ⟨as, rfl, rfl⟩
  · rw [List.length_append] at hlt
    omega
  · cases as with
    | nil => simp at hlt
    | cons c as => exact ⟨c, as, rfl, rfl⟩

namespace PlaceholderKind

open Template

theorem not_isDigit_of_eq_point {c : Char} (h : c = '.') : ¬ c.isDigit = true := by
  rw [h]
  decide

/-- Points and digits: a longer run of points never leaves less for both, as no digit is one. -/
theorem readsLongest_fraction : ReadsLongest [.many (.only '.'), .many .asciiDigit]
    (fun cs => ∃ points decimals, cs = points ++ decimals ∧ (∀ c ∈ points, c = '.') ∧
      ∀ c ∈ decimals, c.isDigit = true) := by
  have points := (ReadsLongest.many (.only '.')).congr (Q := fun cs => ∀ c ∈ cs, c = '.')
    fun cs => by simp
  have decimals := (ReadsLongest.many .asciiDigit).congr
    (Q := fun cs => ∀ c ∈ cs, c.isDigit = true) fun cs => by simp only [CharSet.contains_asciiDigit]
  refine points.append decimals ?_
  intro front rest other value rest' hfront hother hvalue heq hlt
  obtain ⟨c, front', rfl, hmore⟩ := exists_of_shorter heq hlt
  cases value with
  | nil => exact ⟨by rwa [List.append_nil], by simp⟩
  | cons d value =>
    obtain ⟨rfl, -⟩ := List.cons.inj hmore
    exact absurd (hvalue d (by simp)) (not_isDigit_of_eq_point (hfront d (by simp)))

/-- The steps of a kind read the longest value of the kind that lets the rest be read. -/
theorem readsLongest_steps (kind : PlaceholderKind) : ReadsLongest kind.steps kind.Takes := by
  have digits := (ReadsLongest.oneOrMore .asciiDigit).congr
    (Q := fun cs => cs ≠ [] ∧ ∀ c ∈ cs, c.isDigit = true) fun cs => by
      simp only [CharSet.contains_asciiDigit]
  cases kind with
  | int => exact digits
  | float =>
    refine (digits.append readsLongest_fraction ?_).congr fun cs => ?_
    · -- after fewer digits than there are, only digits follow, and they are digits of the first run
      rintro front rest other _ rest' ⟨-, hfront⟩ ⟨hne, hother⟩ ⟨points, decimals, rfl, hp, hd⟩
        heq hlt
      obtain ⟨c, front', rfl, hmore⟩ := exists_of_shorter heq hlt
      cases points with
      | nil =>
        exact ⟨⟨by simp [hne], List.forall_mem_append.mpr ⟨hother, hd⟩⟩,
          [], [], rfl, by simp, by simp⟩
      | cons p points =>
        obtain ⟨rfl, -⟩ := List.cons.inj hmore
        exact absurd (hfront p (by simp)) (not_isDigit_of_eq_point (hp p (by simp)))
    · constructor
      · rintro ⟨whole, _, rfl, hw, points, decimals, rfl, hp, hd⟩
        exact ⟨whole, points, decimals, rfl, hw, hp, hd⟩
      · rintro ⟨whole, points, decimals, rfl, hw, hp, hd⟩
        exact ⟨whole, _, rfl, hw, points, decimals, rfl, hp, hd⟩
  | text =>
    refine (ReadsLongest.oneOrMore .notLineBreak).congr fun cs => ?_
    simp only [Takes, CharSet.contains_notLineBreak, decide_eq_true_iff]
  | yesNo =>
    refine (ReadsLongest.one (.ofList ['y', 'n'])).congr fun cs => ?_
    simp only [Takes, CharSet.contains_ofList, decide_eq_true_iff, List.mem_cons,
      List.not_mem_nil, or_false, or_and_right, exists_or, exists_eq_left]

end PlaceholderKind

/-! ### Tokens -/

namespace SignatureToken

/-- The text of a token in a signature. -/
def written : SignatureToken → String
  | word text => text
  | value p => "<" ++ p.name ++ ":" ++ String.ofList [p.kind.code] ++ ">"

theorem written_of_placeholder? {inner : List Char} {p : Placeholder}
    (h : placeholder? inner = some p) : inner = p.name.toList ++ [':', p.kind.code] := by
  unfold placeholder? at h
  dsimp only at h
  split at h
  · next code hrest =>
    split at h
    · cases h
    · obtain ⟨kind, hkind, rfl⟩ := Option.map_eq_some_iff.mp h
      rw [PlaceholderKind.code_of_ofCode? hkind, String.toList_ofList, ← hrest,
        List.takeWhile_append_dropWhile]
  · cases h

theorem written_of_read? {text : String} {token : SignatureToken} (h : read? text = some token) :
    token.written = text := by
  unfold read? at h
  split at h
  · cases h
  · next c cs htext =>
    split at h
    · cases h
      rfl
    · split at h
      · next hends =>
        obtain ⟨p, hp, rfl⟩ := Option.map_eq_some_iff.mp h
        simp only [Bool.and_eq_true, decide_eq_true_iff] at hends
        obtain ⟨rfl, hlast⟩ := hends
        obtain ⟨inner, rfl⟩ := List.getLast?_eq_some_iff.mp hlast
        rw [List.dropLast_concat] at hp
        refine String.toList_injective ?_
        rw [htext, written_of_placeholder? hp]
        simp [written]
      · cases h

theorem isWordPart_of_read? {text word : String} (h : read? text = some (.word word)) :
    ∀ c ∈ word.toList, isWordPart c = true := by
  unfold read? at h
  split at h
  · cases h
  · next c cs htext =>
    split at h
    · next hword =>
      cases h
      rw [htext]
      exact List.all_eq_true.mp hword
    · split at h
      · obtain ⟨_, -, hvalue⟩ := Option.map_eq_some_iff.mp h
        cases hvalue
      · cases h

/-- A word has no space. -/
theorem not_space_of_read? {text word : String} (h : read? text = some (.word word)) :
    ' ' ∉ word.toList := by
  intro hspace
  have hpart := isWordPart_of_read? h ' ' hspace
  revert hpart
  decide

/-- A token stands for a piece of a line, with a value in place of a placeholder. -/
inductive Writes : SignatureToken → List String → String → Prop
  | word (text : String) : Writes (.word text) [] text
  | value {p : Placeholder} {v : String} : p.kind.Takes v.toList → Writes (.value p) [v] v

end SignatureToken

theorem Signature.map_read?_of_readTokens {texts : List String} {tokens : List SignatureToken}
    (h : readTokens texts = .ok tokens) : texts.map SignatureToken.read? = tokens.map some := by
  induction texts generalizing tokens with
  | nil =>
    cases h
    rfl
  | cons text texts ih =>
    unfold readTokens at h
    split at h
    · cases h
    · next token htoken =>
      cases hlater : readTokens texts with
      | error _ =>
        rw [hlater] at h
        cases h
      | ok later =>
        rw [hlater] at h
        cases h
        rw [List.map_cons, List.map_cons, htoken, ih hlater]

theorem Signature.map_written_of_map_read? {texts : List String} {tokens : List SignatureToken}
    (h : texts.map SignatureToken.read? = tokens.map some) : tokens.map (·.written) = texts := by
  induction texts generalizing tokens with
  | nil => rw [List.map_eq_nil_iff.mp h.symm, List.map_nil]
  | cons text texts ih =>
    obtain ⟨token, tokens, rfl, htoken, hlater⟩ := List.map_eq_cons_iff.mp h.symm
    rw [List.map_cons, SignatureToken.written_of_read? htoken.symm, ih hlater.symm]

/-! ### Fillings -/

/-- The tokens stand for these pieces of a line, with values in place of the placeholders, in
order. -/
inductive Filling : List SignatureToken → List String → List String → Prop
  | nil : Filling [] [] []
  | cons {token : SignatureToken} {tokens : List SignatureToken} {own values pieces : List String}
      {piece : String} : token.Writes own piece → Filling tokens values pieces →
      Filling (token :: tokens) (own ++ values) (piece :: pieces)

theorem filling_cons {token : SignatureToken} {tokens : List SignatureToken}
    {values pieces : List String} : Filling (token :: tokens) values pieces ↔
      ∃ own later piece rest, values = own ++ later ∧ pieces = piece :: rest ∧
        token.Writes own piece ∧ Filling tokens later rest := by
  constructor
  · intro h
    cases h with
    | cons hown hlater => exact ⟨_, _, _, _, rfl, rfl, hown, hlater⟩
  · rintro ⟨_, _, _, _, rfl, rfl, hown, hlater⟩
    exact .cons hown hlater

theorem filling_nil {values pieces : List String} :
    Filling [] values pieces ↔ values = [] ∧ pieces = [] := by
  constructor
  · intro h
    cases h
    exact ⟨rfl, rfl⟩
  · rintro ⟨rfl, rfl⟩
    exact .nil

theorem filling_word {text : String} {tokens : List SignatureToken} {values pieces : List String} :
    Filling (.word text :: tokens) values pieces ↔
      ∃ rest, pieces = text :: rest ∧ Filling tokens values rest := by
  rw [filling_cons]
  constructor
  · rintro ⟨_, _, _, rest, rfl, rfl, ⟨⟩, hlater⟩
    exact ⟨rest, rfl, hlater⟩
  · rintro ⟨rest, rfl, hlater⟩
    exact ⟨[], values, text, rest, rfl, rfl, .word text, hlater⟩

theorem filling_value {p : Placeholder} {tokens : List SignatureToken}
    {values pieces : List String} : Filling (.value p :: tokens) values pieces ↔
      ∃ v later rest, values = v :: later ∧ pieces = v :: rest ∧ p.kind.Takes v.toList ∧
        Filling tokens later rest := by
  rw [filling_cons]
  constructor
  · rintro ⟨_, later, v, rest, rfl, rfl, hwrites, hlater⟩
    cases hwrites with
    | value hv => exact ⟨v, later, rest, rfl, rfl, hv, hlater⟩
  · rintro ⟨v, later, rest, rfl, rfl, hv, hlater⟩
    exact ⟨[v], later, v, rest, rfl, rfl, .value hv, hlater⟩

/-- The line is the tokens with values in place of the placeholders, one space between each two. -/
def Fills (tokens : List SignatureToken) (values : List String) (line : String) : Prop :=
  ∃ pieces, Filling tokens values pieces ∧ " ".intercalate pieces = line

/-- The values are others, or the first of them that differs from the other one in length is
longer. -/
def AsLong (values others : List String) : Prop :=
  others = values ∨ others.map String.length < values.map String.length

/-! ### What a template gives -/

open Template LineRule

theorem everyOther_push (c : Char) (texts : List (List Char)) :
    everyOther (push c texts) = everyOther texts := by
  cases texts with
  | nil => rfl
  | cons text texts => cases texts <;> rfl

theorem everyOther_pushAll (value : List Char) (texts : List (List Char)) :
    everyOther (pushAll value texts) = everyOther texts := by
  induction value with
  | nil => rfl
  | cons c value ih => exact (everyOther_push c _).trans ih

/-- A template gives values for a line if there are any that belong to it, and gives the longest
ones, the first value first. -/
structure Answers (t : Template) (F : List String → List Char → Prop) : Prop where
  sound : ∀ {cs : List Char} {texts : List (List Char)}, split? t cs = some texts →
    F (everyOther texts) cs ∧ ∀ others, F others cs → AsLong (everyOther texts) others
  complete : ∀ {values : List String} {cs : List Char}, F values cs → (split? t cs).isSome

namespace Answers

variable {t : Template} {F G : List String → List Char → Prop}

theorem congr (h : Answers t F) (hFG : ∀ values cs, F values cs ↔ G values cs) : Answers t G := by
  obtain rfl : F = G := funext fun values => funext fun cs => propext (hFG values cs)
  exact h

theorem nil : Answers [] (fun values cs => values = [] ∧ cs = []) where
  sound := by
    intro cs texts h
    cases cs with
    | nil =>
      rw [split?] at h
      cases h
      exact ⟨⟨rfl, rfl⟩, fun others ho => Or.inl ho.1⟩
    | cons c cs =>
      rw [split?] at h
      cases h
  complete := by
    rintro _ _ ⟨rfl, rfl⟩
    rw [split?]
    rfl

/-- A fixed text in front of a line changes nothing about its values. -/
theorem exactly (h : Answers t F) (text : List Char) : Answers (exactly text ++ t)
    (fun values cs => ∃ rest, cs = text ++ rest ∧ F values rest) where
  sound := by
    intro cs texts hs
    obtain ⟨_, rest, texts', rfl, rfl, hrest, rfl, -⟩ := (ReadsLongest.exactly text).sound hs
    obtain ⟨hvalues, hmax⟩ := h.sound hrest
    rw [everyOther_pushAll]
    refine ⟨⟨rest, rfl, hvalues⟩, ?_⟩
    rintro others ⟨rest', hcs, hothers⟩
    obtain rfl := List.append_cancel_left hcs
    exact hmax others hothers
  complete := by
    rintro values _ ⟨rest, rfl, hvalues⟩
    exact (ReadsLongest.exactly text).complete rfl (h.complete hvalues)

/-- A value in front of a line is the longest one, and comes before what is then longest behind
it. -/
theorem value (h : Answers t F) {steps : Template} {P : List Char → Prop}
    (hsteps : ReadsLongest steps P) : Answers (.cut :: steps ++ [.cut] ++ t)
      (fun values cs => ∃ first later rest, values = first :: later ∧ cs = first.toList ++ rest ∧
        P first.toList ∧ F later rest) where
  sound := by
    intro cs texts hs
    rw [List.cons_append, List.cons_append, List.append_assoc, split?] at hs
    obtain ⟨_, hread, rfl⟩ := Option.map_eq_some_iff.mp hs
    obtain ⟨first, rest, texts', rfl, hfirst, hrest, rfl, hmax⟩ := hsteps.sound hread
    rw [List.singleton_append, split?] at hrest
    obtain ⟨texts'', hread', rfl⟩ := Option.map_eq_some_iff.mp hrest
    obtain ⟨hlater, hmax'⟩ := h.sound hread'
    have hvalues : everyOther ([] :: pushAll first ([] :: texts'')) =
        String.ofList first :: everyOther texts'' := by
      rw [pushAll_cons, List.append_nil]
      rfl
    rw [hvalues]
    refine ⟨⟨_, _, rest, rfl, by rw [String.toList_ofList], by rwa [String.toList_ofList], hlater⟩,
      ?_⟩
    rintro _ ⟨other, others, rest', rfl, hcs, hother, hothers⟩
    have hsome : (split? (.cut :: t) rest').isSome := by
      rw [split?, Option.isSome_map]
      exact h.complete hothers
    rcases Nat.lt_or_eq_of_le (hmax other.toList rest' hcs hother hsome) with hlt | heq
    · refine Or.inr (List.cons_lt_cons_iff.mpr (Or.inl ?_))
      rwa [String.length_ofList, ← String.length_toList]
    · obtain ⟨rfl, rfl⟩ := List.append_inj hcs heq.symm
      rw [String.ofList_toList]
      rcases hmax' others hothers with rfl | hlt
      · exact Or.inl rfl
      · exact Or.inr (List.cons_lt_cons_iff.mpr (Or.inr ⟨rfl, hlt⟩))
  complete := by
    rintro _ _ ⟨first, later, rest, rfl, rfl, hfirst, hlater⟩
    rw [List.cons_append, List.cons_append, List.append_assoc, split?, Option.isSome_map]
    refine hsteps.complete hfirst ?_
    rw [List.singleton_append, split?, Option.isSome_map]
    exact h.complete hlater

/-- A token in front of a line. -/
theorem token (h : Answers t F) (token : SignatureToken) : Answers (token.steps ++ t)
    (fun values cs => ∃ own later piece rest, values = own ++ later ∧ cs = piece.toList ++ rest ∧
      token.Writes own piece ∧ F later rest) := by
  cases token with
  | word text =>
    refine (h.exactly text.toList).congr fun values cs => ?_
    constructor
    · rintro ⟨rest, rfl, hvalues⟩
      exact ⟨[], values, text, rest, rfl, rfl, .word text, hvalues⟩
    · rintro ⟨_, later, _, rest, rfl, rfl, ⟨⟩, hlater⟩
      exact ⟨rest, rfl, hlater⟩
  | value p =>
    refine (h.value p.kind.readsLongest_steps).congr fun values cs => ?_
    constructor
    · rintro ⟨first, later, rest, rfl, rfl, hfirst, hlater⟩
      exact ⟨[first], later, first, rest, rfl, rfl, .value hfirst, hlater⟩
    · rintro ⟨_, later, first, rest, rfl, rfl, ⟨⟩, hlater⟩
      exact ⟨first, later, rest, rfl, rfl, by assumption, hlater⟩

/-- **Lines**: the template of a line gives the longest filling. -/
theorem lineTemplate {tokens : List SignatureToken} (hne : tokens ≠ []) :
    Answers (Signature.lineTemplate tokens) (fun values cs => ∃ pieces,
      Filling tokens values pieces ∧ cs = [' '].intercalate (pieces.map String.toList)) := by
  unfold Signature.lineTemplate
  induction tokens with
  | nil => exact absurd rfl hne
  | cons token tokens ih =>
    cases tokens with
    | nil =>
      have last := nil.token token
      rw [List.append_nil] at last
      rw [List.map_singleton, List.intercalate_singleton]
      refine last.congr fun values cs => ?_
      constructor
      · rintro ⟨own, _, piece, _, rfl, rfl, hown, rfl, rfl⟩
        exact ⟨[piece], .cons hown .nil, by simp⟩
      · rintro ⟨_, hfilling, rfl⟩
        obtain ⟨own, _, piece, _, rfl, rfl, hown, ⟨⟩⟩ := filling_cons.mp hfilling
        exact ⟨own, [], piece, [], rfl, by simp, hown, rfl, rfl⟩
    | cons next tokens =>
      have first := ((ih (List.cons_ne_nil next tokens)).exactly [' ']).token token
      rw [List.map_cons, List.map_cons, List.intercalate_cons_cons, List.append_assoc]
      rw [List.map_cons] at first
      refine first.congr fun values cs => ?_
      -- there is another piece behind the first one, and a space between the two
      have join {piece : String} {later pieces : List String}
          (h : Filling (next :: tokens) later pieces) :
          piece.toList ++ ([' '] ++ [' '].intercalate (pieces.map String.toList)) =
            [' '].intercalate ((piece :: pieces).map String.toList) := by
        obtain ⟨_, _, _, _, -, rfl, -, -⟩ := filling_cons.mp h
        rw [List.map_cons, List.map_cons, List.map_cons, List.intercalate_cons_cons,
          List.append_assoc]
      constructor
      · rintro ⟨own, later, piece, _, rfl, rfl, hown, _, rfl, pieces, hlater, rfl⟩
        exact ⟨piece :: pieces, .cons hown hlater, join hlater⟩
      · rintro ⟨_, hfilling, rfl⟩
        obtain ⟨own, later, piece, pieces, rfl, rfl, hown, hlater⟩ := filling_cons.mp hfilling
        exact ⟨own, later, piece, _, rfl, (join hlater).symm, hown, _, rfl, pieces, hlater, rfl⟩

end Answers

theorem fills_iff {tokens : List SignatureToken} {values : List String} {line : String} :
    Fills tokens values line ↔ ∃ pieces, Filling tokens values pieces ∧
      line.toList = [' '].intercalate (pieces.map String.toList) := by
  refine exists_congr fun pieces => and_congr_right fun _ => ?_
  rw [← String.toList_inj, String.toList_intercalate, eq_comm]
  rfl

/-! ### Values without spaces -/

/-- Where pieces are put together with a space between each two, the spaces are these and those in
the pieces. -/
theorem count_intercalate (piece : List Char) (pieces : List (List Char)) :
    ([' '].intercalate (piece :: pieces)).count ' ' =
      (piece :: pieces).flatten.count ' ' + pieces.length := by
  induction pieces generalizing piece with
  | nil => simp
  | cons next pieces ih =>
    rw [List.intercalate_cons_cons, List.append_assoc, List.count_append, List.count_append, ih]
    simp only [List.flatten_cons, List.count_append, List.length_cons, List.count_singleton_self]
    omega

/-- Pieces without spaces are what lies between the spaces of the whole. -/
theorem pieces_intercalate {pieces : List (List Char)} (hne : pieces ≠ [])
    (h : ∀ piece ∈ pieces, ' ' ∉ piece) :
    Text.pieces (· == ' ') ([' '].intercalate pieces) = pieces := by
  have alone {piece : List Char} (hp : ' ' ∉ piece) : Text.pieces (· == ' ') piece = [piece] :=
    Text.pieces_eq_singleton fun c hc => by
      rw [beq_eq_false_iff_ne]
      rintro rfl
      exact hp hc
  induction pieces with
  | nil => exact absurd rfl hne
  | cons piece pieces ih =>
    obtain ⟨hpiece, hlater⟩ := List.forall_mem_cons.mp h
    cases pieces with
    | nil =>
      rw [List.intercalate_singleton]
      exact alone hpiece
    | cons next pieces =>
      rw [List.intercalate_cons_cons, List.append_assoc, List.singleton_append,
        Text.pieces_append_sep (by decide), alone hpiece, ih (List.cons_ne_nil next pieces) hlater]
      rfl

/-- As many pieces as there are without spaces make up the same whole only if they are the same. -/
theorem eq_of_intercalate_eq {pieces others : List (List Char)}
    (hlength : pieces.length = others.length)
    (heq : [' '].intercalate pieces = [' '].intercalate others)
    (h : ∀ piece ∈ pieces, ' ' ∉ piece) : pieces = others := by
  cases pieces with
  | nil => exact (List.length_eq_zero_iff.mp hlength.symm).symm
  | cons piece pieces =>
    cases others with
    | nil => cases hlength
    | cons other others =>
      -- the whole has no more spaces than there are between pieces, so the others have none
      have hcount := congrArg (List.count ' ') heq
      have hzero : (piece :: pieces).flatten.count ' ' = 0 := by
        refine List.count_eq_zero.mpr fun hspace => ?_
        obtain ⟨p, hp, hmem⟩ := List.mem_flatten.mp hspace
        exact h p hp hmem
      rw [count_intercalate, count_intercalate, hzero, Nat.zero_add, Nat.succ.inj hlength,
        Nat.right_eq_add] at hcount
      have hothers : ∀ p ∈ other :: others, ' ' ∉ p := fun p hp hmem =>
        List.count_eq_zero.mp hcount (List.mem_flatten.mpr ⟨p, hp, hmem⟩)
      rw [← pieces_intercalate (List.cons_ne_nil piece pieces) h, heq,
        pieces_intercalate (List.cons_ne_nil other others) hothers]

namespace Filling

variable {tokens : List SignatureToken} {values values' pieces pieces' : List String}

theorem length_eq (h : Filling tokens values pieces) : pieces.length = tokens.length := by
  induction h with
  | nil => rfl
  | cons _ _ ih => rw [List.length_cons, List.length_cons, ih]

/-- There is one value for each placeholder. -/
theorem length_values (h : Filling tokens values pieces) :
    values.length = (tokens.filterMap (·.placeholder)).length := by
  induction h with
  | nil => rfl
  | cons hown _ ih => cases hown <;> simp [SignatureToken.placeholder, ih]

/-- Every value is one that a placeholder takes. -/
theorem exists_takes (h : Filling tokens values pieces) :
    ∀ v ∈ values, ∃ kind : PlaceholderKind, kind.Takes v.toList := by
  induction h with
  | nil => exact List.forall_mem_nil _
  | cons hown _ ih =>
    refine List.forall_mem_append.mpr ⟨?_, ih⟩
    cases hown with
    | word => exact List.forall_mem_nil _
    | value hv => exact List.forall_mem_singleton.mpr ⟨_, hv⟩

/-- The pieces tell the values. -/
theorem values_unique (h : Filling tokens values pieces) (h' : Filling tokens values' pieces) :
    values = values' := by
  induction h generalizing values' with
  | nil =>
    cases h'
    rfl
  | cons hown _ ih =>
    cases h' with
    | cons hown' hlater =>
      rw [ih hlater]
      cases hown <;> cases hown' <;> rfl

/-- If no value has a space, and no word has one, no piece has one. -/
theorem not_space (h : Filling tokens values pieces)
    (htokens : ∀ word, .word word ∈ tokens → ' ' ∉ word.toList)
    (hvalues : ∀ v ∈ values, ' ' ∉ v.toList) : ∀ piece ∈ pieces, ' ' ∉ piece.toList := by
  induction h with
  | nil => exact List.forall_mem_nil _
  | cons hown _ ih =>
    obtain ⟨hfirst, hlater⟩ := List.forall_mem_append.mp hvalues
    refine List.forall_mem_cons.mpr
      ⟨?_, ih (fun word hm => htokens word (List.mem_cons_of_mem _ hm)) hlater⟩
    cases hown with
    | word => exact htokens _ List.mem_cons_self
    | value => exact hfirst _ (List.mem_singleton.mpr rfl)

/-- **Values without spaces**: a line that has a filling whose values have no space has no other
filling. -/
theorem eq_of_not_space (h : Filling tokens values pieces) (h' : Filling tokens values' pieces')
    (hline : " ".intercalate pieces = " ".intercalate pieces')
    (htokens : ∀ word, .word word ∈ tokens → ' ' ∉ word.toList)
    (hvalues : ∀ v ∈ values, ' ' ∉ v.toList) : values' = values := by
  have hnone := h.not_space htokens hvalues
  have hlength : pieces.length = pieces'.length := h.length_eq.trans h'.length_eq.symm
  have hchars := congrArg String.toList hline
  rw [String.toList_intercalate, String.toList_intercalate] at hchars
  have hsame := eq_of_intercalate_eq (by rw [List.length_map, List.length_map, hlength]) hchars
    (List.forall_mem_map.mpr hnone)
  obtain rfl := (List.map_inj_right fun _ _ => String.toList_injective).mp hsame
  exact h'.values_unique h

end Filling

end CommandConsole

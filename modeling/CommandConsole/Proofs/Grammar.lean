import CommandConsole.Proofs.Written

/-!
# CommandConsole.Proofs.Grammar — a written signature is a grammar

A line has a written signature if and only if it is the tokens with values in place of their
placeholders, with one space between each two; its values are those of the longest such filling.

* `Signature.fills_of_captures?`, `Signature.isSome_of_fills`: the template of a signature, compared
  with the fillings.
* `Signature.captures_fillings`: the values in a line, and the pattern that gives the same.
-/

namespace CommandConsole

namespace Signature

variable {raw line : String} {tokens : List SignatureToken} {values : List String}

theorem exists_of_compile {signature : Signature} (h : compile raw = .ok signature) :
    ∃ tokens, readTokens (Text.words raw) = .ok tokens ∧ tokens ≠ [] ∧
      signature = ofTokens raw tokens := by
  unfold compile at h
  split at h
  · cases h
  · cases h
  · next tokens hne hread =>
    cases h
    exact ⟨tokens, hread, hne, rfl⟩

theorem captures?_ofTokens (line : String) : (ofTokens raw tokens).captures? line =
    (Template.split? (lineTemplate tokens) line.toList).map LineRule.everyOther :=
  congrArg (Option.map LineRule.everyOther) (Template.splitLine?_eq_split? _ _)

/-- The values in a line are the longest filling. -/
theorem fills_of_captures? (hne : tokens ≠ [])
    (h : (ofTokens raw tokens).captures? line = some values) :
    Fills tokens values line ∧ ∀ others, Fills tokens others line → AsLong values others := by
  rw [captures?_ofTokens] at h
  obtain ⟨texts, htexts, rfl⟩ := Option.map_eq_some_iff.mp h
  obtain ⟨hfills, hmax⟩ := (Answers.lineTemplate hne).sound htexts
  exact ⟨fills_iff.mpr hfills, fun others ho => hmax others (fills_iff.mp ho)⟩

/-- A line with a filling has values. -/
theorem isSome_of_fills (hne : tokens ≠ []) (h : Fills tokens values line) :
    ((ofTokens raw tokens).captures? line).isSome := by
  rw [captures?_ofTokens, Option.isSome_map]
  exact (Answers.lineTemplate hne).complete (fills_iff.mp h)

/-- The values in a line are a filling whose values have no space, if there is one. -/
theorem captures?_of_not_space (hne : tokens ≠ []) (h : Fills tokens values line)
    (htokens : ∀ word, .word word ∈ tokens → ' ' ∉ word.toList)
    (hvalues : ∀ value ∈ values, ' ' ∉ value.toList) :
    (ofTokens raw tokens).captures? line = some values := by
  obtain ⟨others, ho⟩ := Option.isSome_iff_exists.mp (isSome_of_fills hne h)
  obtain ⟨pieces, hfilling, hline⟩ := h
  obtain ⟨⟨pieces', hfilling', hline'⟩, -⟩ := fills_of_captures? hne ho
  rw [ho, hfilling.eq_of_not_space hfilling' (hline.trans hline'.symm) htokens hvalues]

/-- **Signatures.** A text that is accepted consists of tokens, and a line has the signature if and
only if it is the tokens with values in place of the placeholders, one space between each two. The
values in it are such a filling, one for each placeholder in order; of all fillings it is the one
with the longest first value, then the longest second value, and so on. A filling whose values have
no space is the only one. The rule that the signature shows as a written pattern, read and matched
as a pattern, gives the same values for every line. -/
theorem captures_fillings {raw : String} {signature : Signature}
    (h : compile raw = .ok signature) : ∃ tokens,
      (Text.words raw).map SignatureToken.read? = tokens.map some ∧
      tokens.map (·.written) = Text.words raw ∧ tokens ≠ [] ∧
      signature.placeholders = tokens.filterMap (·.placeholder) ∧
      (∃ e, Pattern.Expr.read signature.matcher.toList = .ok e ∧ ∀ line,
        e.toPattern.captures? line = signature.captures? line) ∧ ∀ line,
        ((signature.captures? line).isSome ↔ ∃ values, Fills tokens values line) ∧
        (∀ values, signature.captures? line = some values → Fills tokens values line ∧
          values.length = signature.placeholders.length ∧
          ∀ others, Fills tokens others line → AsLong values others) ∧
        ∀ values, Fills tokens values line → (∀ value ∈ values, ' ' ∉ value.toList) →
          signature.captures? line = some values := by
  obtain ⟨tokens, hread, hne, rfl⟩ := exists_of_compile h
  have hmap := map_read?_of_readTokens hread
  have htoken : ∀ token ∈ tokens, ∃ text, SignatureToken.read? text = some token := by
    intro token hm
    have hmem : some token ∈ (Text.words raw).map SignatureToken.read? :=
      hmap ▸ List.mem_map_of_mem hm
    obtain ⟨text, -, htext⟩ := List.mem_map.mp hmem
    exact ⟨text, htext⟩
  refine ⟨tokens, hmap, map_written_of_map_read? hmap, hne, rfl, exists_pattern hne htoken,
    fun line => ⟨⟨fun hsome => ?_, fun ⟨values, hf⟩ => isSome_of_fills hne hf⟩,
      fun values hv => ?_, fun values hf hnone => captures?_of_not_space hne hf ?_ hnone⟩⟩
  · obtain ⟨values, hv⟩ := Option.isSome_iff_exists.mp hsome
    exact ⟨values, (fills_of_captures? hne hv).1⟩
  · obtain ⟨⟨pieces, hfilling, hline⟩, hmax⟩ := fills_of_captures? hne hv
    exact ⟨⟨pieces, hfilling, hline⟩, hfilling.length_values, hmax⟩
  · intro word hword
    obtain ⟨text, htext⟩ := htoken _ hword
    exact SignatureToken.not_space_of_read? htext

/-- A line with two fillings has the values of the one whose first value is longer; a line whose
values have no space has just these. -/
theorem captures_fillings_alias : ∃ signature tokens,
    compile "alias new <alias:s> to <commands:s>" = .ok signature ∧
      tokens.map (·.written) = ["alias", "new", "<alias:s>", "to", "<commands:s>"] ∧
      signature.captures? "alias new a to b to c" = some ["a to b", "c"] ∧
      Fills tokens ["a to b", "c"] "alias new a to b to c" ∧
      Fills tokens ["a", "b to c"] "alias new a to b to c" ∧
      AsLong ["a to b", "c"] ["a", "b to c"] ∧
      signature.captures? "alias new a to b" = some ["a", "b"] := by
  obtain ⟨signature, hsignature, hcaptures⟩ : ∃ signature,
      compile "alias new <alias:s> to <commands:s>" = .ok signature ∧
        signature.captures? "alias new a to b to c" = some ["a to b", "c"] :=
    ⟨_, rfl, by decide +kernel⟩
  have hread : (Text.words "alias new <alias:s> to <commands:s>").map SignatureToken.read? =
      [.word "alias", .word "new", .value ⟨"alias", .text⟩, .word "to",
        .value ⟨"commands", .text⟩].map some := by
    decide +kernel
  have hwords : Text.words "alias new <alias:s> to <commands:s>" =
      ["alias", "new", "<alias:s>", "to", "<commands:s>"] := by
    decide +kernel
  obtain ⟨tokens, hmap, hwritten, -, -, -, hlines⟩ := captures_fillings hsignature
  obtain rfl := (List.map_inj_right fun _ _ => Option.some.inj).mp (hread.symm.trans hmap)
  obtain ⟨-, hsound, -⟩ := hlines "alias new a to b to c"
  obtain ⟨hfills, -, hmax⟩ := hsound _ hcaptures
  have writes (name : String) {value : String}
      (h : value.toList ≠ [] ∧ ∀ c ∈ value.toList, c ≠ '\n') :
      (SignatureToken.value ⟨name, .text⟩).Writes [value] value := .value h
  have filling {first second : String}
      (h1 : first.toList ≠ [] ∧ ∀ c ∈ first.toList, c ≠ '\n')
      (h2 : second.toList ≠ [] ∧ ∀ c ∈ second.toList, c ≠ '\n') : Filling
        [.word "alias", .word "new", .value ⟨"alias", .text⟩, .word "to",
          .value ⟨"commands", .text⟩] [first, second] ["alias", "new", first, "to", second] :=
    .cons (.word "alias") (.cons (.word "new") (.cons (writes "alias" h1)
      (.cons (.word "to") (.cons (writes "commands" h2) .nil))))
  have hother : Fills _ ["a", "b to c"] "alias new a to b to c" :=
    ⟨_, filling (by simp) (by simp), by decide +kernel⟩
  obtain ⟨-, -, hplain⟩ := hlines "alias new a to b"
  refine ⟨signature, _, hsignature, hwritten.trans hwords, hcaptures, hfills, hother,
    hmax _ hother, hplain ["a", "b"] ⟨_, filling (by simp) (by simp), by decide +kernel⟩ ?_⟩
  decide +kernel

end Signature

end CommandConsole

import CommandConsole.Proofs.Asking
import CommandConsole.Proofs.Colouring
import CommandConsole.Proofs.Grammar
import CommandConsole.Proofs.Naming
import CommandConsole.Proofs.Numerals

/-!
# CommandConsole.Proofs.Separating — texts that write the same statements

A text writes statements in turn: each stands between semicolons, with any blanks around it, and
further semicolons and blanks make no difference. So every list of statements can be written, texts
that write the same list are cut into it, and what runs is the list, whether the text is that of an
alias, of `exec`, of a hook, or a sequence of its own.

* `Text.IsStatement`: what a statement looks like.
* `Text.Separates`: the texts that write a list of statements.
* `Text.statements_eq_iff`: a text is cut into the statements that it writes.
* `Console.IsBuiltin.resolve_exec`: the lines that hand a text to `exec`.
* `Console.runs_separated`: the statements of a text are run.
-/

namespace CommandConsole

namespace Text

/-- There is something in the text, it has no blanks at its ends, and no semicolon. -/
structure IsStatement (s : String) : Prop where
  front : ∃ c, s.toList.head? = some c ∧ isBlank c = false
  back : EndsSolid s
  whole : ';' ∉ s.toList

/-- There is nothing in the text but blanks and semicolons. -/
def Gap (s : String) : Prop := ∀ c ∈ s.toList, isBlank c = true ∨ c = ';'

/-- The text writes these statements in turn: there is a semicolon between each two, and what else
is around them is blanks and semicolons. -/
inductive Separates : List String → String → Prop
  | none {gap : String} : Gap gap → Separates [] gap
  | last {gap x blank : String} : Gap gap → IsStatement x → isBlankText blank = true →
      Separates [x] (gap ++ x ++ blank)
  | more {gap x blank text : String} {xs : List String} : Gap gap → IsStatement x →
      isBlankText blank = true → Separates xs text →
      Separates (x :: xs) (gap ++ x ++ blank ++ ";" ++ text)

variable {a b s x text : String} {xs : List String}

theorem isBlankText_iff : isBlankText s = true ↔ ∀ c ∈ s.toList, isBlank c = true :=
  List.all_eq_true

/-! ### Statements -/

theorem IsStatement.ne_empty (h : IsStatement x) : x ≠ "" := by
  rintro rfl
  obtain ⟨c, hc, -⟩ := h.front
  cases hc

theorem IsStatement.trim_eq (h : IsStatement x) : trim x = x := by
  obtain ⟨c, hfirst, hc⟩ := h.front
  exact trim_eq_self hfirst hc h.back

/-- A text is what trimming leaves of it, between blanks. -/
theorem exists_around (s : String) : ∃ front back, isBlankText front = true ∧
    isBlankText back = true ∧ s = front ++ trim s ++ back := by
  refine ⟨String.ofList (s.toList.takeWhile isBlank),
    String.ofList ((s.toList.dropWhile isBlank).rtakeWhile isBlank), ?_, ?_, ?_⟩
  · rw [isBlankText_iff, String.toList_ofList]
    exact fun c hc => List.mem_takeWhile_imp hc
  · rw [isBlankText_iff, String.toList_ofList]
    exact fun c hc => List.mem_rtakeWhile_imp hc
  · refine String.toList_inj.mp ?_
    simp only [String.toList_append, String.toList_ofList, toList_trim, trimChars_eq_rdropWhile]
    rw [List.append_assoc, List.rdropWhile_append_rtakeWhile, List.takeWhile_append_dropWhile]

theorem isStatement_trim (hne : trim s ≠ "") (hwhole : ';' ∉ s.toList) : IsStatement (trim s) := by
  have hchars : trimChars s.toList ≠ [] := by
    rw [← toList_trim]
    exact mt String.toList_eq_nil_iff.mp hne
  refine ⟨⟨(trimChars s.toList).head hchars, ?_, ?_⟩,
    ⟨(trimChars s.toList).getLast hchars, ?_, ?_⟩, ?_⟩
  · rw [toList_trim]
    exact List.head?_eq_some_head hchars
  · have hfirst := List.dropWhile_eq_self_iff.mp (dropWhile_trimChars s.toList)
    rw [List.head_eq_getElem]
    simpa using hfirst (List.length_pos_iff.mpr hchars)
  · rw [toList_trim]
    exact List.getLast?_eq_some_getLast hchars
  · simpa [trimChars_eq_rdropWhile] using List.rdropWhile_last_not isBlank _ hchars
  · rw [toList_trim]
    exact fun hm => hwhole (mem_of_mem_trimChars hm)

theorem isStatement_iff : IsStatement x ↔ x ≠ "" ∧ trim x = x ∧ ';' ∉ x.toList := by
  refine ⟨fun h => ⟨h.ne_empty, h.trim_eq, h.whole⟩, fun ⟨hne, htrim, hwhole⟩ => ?_⟩
  rw [← htrim] at hne ⊢
  exact isStatement_trim hne hwhole

/-! ### Cutting -/

theorem statementChars_append_sep (as bs : List Char) :
    statementChars (as ++ ';' :: bs) = statementChars as ++ statementChars bs := by
  unfold statementChars
  rw [pieces_append_sep (by decide), List.map_append, List.filter_append]

/-- **Parts**: a text is cut into what its parts at a semicolon are cut into. -/
theorem statements_append (a b : String) :
    statements (a ++ ";" ++ b) = statements a ++ statements b := by
  have hchars : (a ++ ";" ++ b).toList = a.toList ++ ';' :: b.toList := by simp
  unfold statements
  rw [hchars, statementChars_append_sep, List.map_append]

/-- Blanks and semicolons before a text make no difference. -/
theorem statements_gap (h : Gap s) (text : String) : statements (s ++ text) = statements text := by
  have hchars : ∀ gap : List Char, (∀ c ∈ gap, isBlank c = true ∨ c = ';') →
      statementChars (gap ++ text.toList) = statementChars text.toList := by
    intro gap hgap
    induction gap with
    | nil => rfl
    | cons c gap ih =>
      obtain ⟨hc, hlater⟩ := List.forall_mem_cons.mp hgap
      rcases hc with hc | rfl
      · exact (statementChars_prepend (List.forall_mem_singleton.mpr hc) _).trans (ih hlater)
      · exact (statementChars_append_sep [] _).trans (ih hlater)
  unfold statements
  rw [String.toList_append, hchars _ h]

/-- A text without semicolons is one statement, if there is anything in it but blanks. -/
theorem statements_of_whole (h : ';' ∉ s.toList) :
    statements s = if trim s = "" then [] else [trim s] := by
  have hpieces : pieces (· == ';') s.toList = [s.toList] :=
    pieces_eq_singleton fun c hc => beq_eq_false_iff_ne.mpr fun heq => h (heq ▸ hc)
  have hempty : trim s = "" ↔ (trimChars s.toList).isEmpty = true := by
    rw [List.isEmpty_iff, ← toList_trim, String.toList_eq_nil_iff]
  unfold statements statementChars
  rw [hpieces, List.map_singleton]
  split
  · next hnone => simp [hempty.mp hnone]
  · next hsome =>
    rw [List.filter_cons_of_pos (by simpa [hempty] using hsome)]
    rfl

/-! ### Texts that write a list -/

theorem Gap.of_blank (h : isBlankText s = true) : Gap s :=
  fun c hc => Or.inl (isBlankText_iff.mp h c hc)

theorem Gap.append (ha : Gap a) (hb : Gap b) : Gap (a ++ b) := by
  unfold Gap
  rw [String.toList_append]
  exact List.forall_mem_append.mpr ⟨ha, hb⟩

/-- More blanks and semicolons in front make no difference. -/
theorem Separates.gap (h : Separates xs text) (hs : Gap s) : Separates xs (s ++ text) := by
  cases h with
  | none hgap => exact .none (hs.append hgap)
  | last hgap hx hblank =>
    rw [← String.append_assoc, ← String.append_assoc]
    exact .last (hs.append hgap) hx hblank
  | more hgap hx hblank hlater =>
    simp only [← String.append_assoc]
    exact .more (hs.append hgap) hx hblank hlater

theorem Separates.isStatement (h : Separates xs text) : ∀ x ∈ xs, IsStatement x := by
  induction h with
  | none => exact List.forall_mem_nil _
  | last _ hx => exact List.forall_mem_singleton.mpr hx
  | more _ hx _ _ ih => exact List.forall_mem_cons.mpr ⟨hx, ih⟩

/-- A statement with blanks around it, and blanks and semicolons before it, is cut out. -/
theorem statements_around (hs : Gap s) (hx : IsStatement x) (hb : isBlankText b = true) :
    statements (s ++ x ++ b) = [x] := by
  have hblank := isBlankText_iff.mp hb
  have hwhole : ';' ∉ (x ++ b).toList := by
    rw [String.toList_append, List.mem_append, not_or]
    exact ⟨hx.whole, fun hm => absurd (hblank ';' hm) (by decide)⟩
  rw [String.append_assoc, statements_gap hs, statements_of_whole hwhole, trim_append hblank,
    hx.trim_eq, if_neg hx.ne_empty]

theorem Separates.statements_eq (h : Separates xs text) : statements text = xs := by
  induction h with
  | @none gap hgap =>
    have hnone := statements_gap hgap ""
    rwa [String.append_empty] at hnone
  | last hgap hx hblank => exact statements_around hgap hx hblank
  | more hgap hx hblank _ ih =>
    rw [statements_append, statements_around hgap hx hblank, ih]
    rfl

/-- A text writes the statements that it is cut into. -/
theorem separates_statements (text : String) : Separates (statements text) text := by
  induction hn : text.length using Nat.strongRecOn generalizing text with
  | ind n ih =>
    by_cases hsep : ';' ∈ text.toList
    · -- the text up to its first semicolon is one statement or blank
      obtain ⟨as, bs, hchars, hfirst⟩ := List.eq_append_cons_of_mem hsep
      obtain ⟨a, b, rfl, ha, hlength⟩ : ∃ a b, text = a ++ ";" ++ b ∧ ';' ∉ a.toList ∧
          b.length < n := by
        refine ⟨String.ofList as, String.ofList bs, String.toList_inj.mp ?_, ?_, ?_⟩
        · simp [hchars]
        · rwa [String.toList_ofList]
        · rw [← hn, ← String.length_toList, ← String.length_toList, hchars, String.toList_ofList,
            List.length_append, List.length_cons]
          omega
      have hlater := ih _ hlength b rfl
      obtain ⟨front, back, hfront, hback, haround⟩ := exists_around a
      rw [statements_append, statements_of_whole ha]
      split
      · next hempty =>
        have hblank : Gap (a ++ ";") :=
          (Gap.of_blank (isBlankText_iff.mpr (trim_eq_empty_iff.mp hempty))).append
            (List.forall_mem_singleton.mpr (Or.inr rfl))
        exact hlater.gap hblank
      · next hne =>
        have hmore := Separates.more (.of_blank hfront) (isStatement_trim hne ha) hback hlater
        rwa [← haround] at hmore
    · obtain ⟨front, back, hfront, hback, haround⟩ := exists_around text
      rw [statements_of_whole hsep]
      split
      · next hempty => exact .none (.of_blank (isBlankText_iff.mpr (trim_eq_empty_iff.mp hempty)))
      · next hne =>
        have hlast := Separates.last (.of_blank hfront) (isStatement_trim hne hsep) hback
        rwa [← haround] at hlast

/-- What a text is cut into are statements. -/
theorem isStatement_of_mem (h : x ∈ statements a) : IsStatement x :=
  (separates_statements a).isStatement x h

/-- **Cutting**: a text is cut into the statements that it writes, and no text writes others too. -/
theorem statements_eq_iff : statements text = xs ↔ Separates xs text :=
  ⟨fun h => h ▸ separates_statements text, Separates.statements_eq⟩

/-- Every list of statements is written by them with semicolons in between. -/
theorem separates_intercalate (h : ∀ x ∈ xs, IsStatement x) :
    Separates xs (";".intercalate xs) := by
  have hnone : Gap "" := List.forall_mem_nil _
  induction xs with
  | nil => exact .none hnone
  | cons x xs ih =>
    obtain ⟨hx, hxs⟩ := List.forall_mem_cons.mp h
    cases xs with
    | nil => simpa using Separates.last hnone hx (show isBlankText "" = true from rfl)
    | cons y ys =>
      have hmore := Separates.more hnone hx (show isBlankText "" = true from rfl) (ih hxs)
      simpa [String.append_assoc] using hmore

end Text

/-! ### What is registered -/

/-- A registered name stands for the statements of the text it was given. -/
theorem AliasTable.expand_of_register {table aliases : AliasTable} {name text : String}
    (h : table.register name text = .ok aliases) :
    Text.trim name ≠ "" ∧ aliases.expand (Text.trim name) = some (Text.statements text) := by
  unfold register at h
  dsimp only at h
  split at h
  · cases h
  · split at h
    · cases h
    · next hne =>
      obtain rfl := Except.ok.inj h
      have hfound : AliasTable.lookup ⟨table.entries.insert (Text.trim name) (Text.trim text)⟩
          (Text.trim name) = some (Text.trim text) := by
        rw [lookup, Text.trim_trim]
        exact (TextMap.find?_insert _ _ _ _).trans (if_pos rfl)
      exact ⟨hne, by rw [expand, hfound, Option.map_some, Text.statements_trim]⟩

/-! ### Lines of `exec` -/

namespace Builtins

variable {a : String}

/-- The signature of `exec`. -/
def execText : String := "exec <commands:s>"

/-- Its parts. -/
def execTokens : List SignatureToken := [.word "exec", .value ⟨"commands", .text⟩]

theorem compile_exec : Signature.compile execText = .ok (.ofTokens execText execTokens) := by
  decide +kernel

/-- The value in a line of `exec` is all that is behind the word. -/
theorem captures?_exec (hne : a ≠ "") (hline : '\n' ∉ a.toList) :
    (Signature.ofTokens execText execTokens).captures? ("exec " ++ a) = some [a] := by
  have htokens : execTokens ≠ [] := List.cons_ne_nil _ _
  have hjoin (text : String) : " ".intercalate ["exec", text] = "exec " ++ text :=
    String.toList_inj.mp (by simp)
  have hfills (values : List String) :
      Fills execTokens values ("exec " ++ a) ↔ values = [a] := by
    simp only [Fills, execTokens, filling_word, filling_value, filling_nil]
    constructor
    · rintro ⟨_, ⟨_, rfl, text, _, _, rfl, rfl, -, rfl, rfl⟩, heq⟩
      rw [hjoin, ← String.toList_inj, String.toList_append, String.toList_append] at heq
      rw [String.toList_inj.mp (List.append_cancel_left heq)]
    · rintro rfl
      refine ⟨_, ⟨_, rfl, a, _, _, rfl, rfl, ⟨by simpa, ?_⟩, rfl, rfl⟩, (hjoin a).symm⟩
      rintro ch hch rfl
      exact hline hch
  obtain ⟨values, hvalues⟩ := Option.isSome_iff_exists.mp
    (Signature.isSome_of_fills htokens ((hfills [a]).mpr rfl))
  rw [hvalues, (hfills values).mp (Signature.fills_of_captures? htokens hvalues).1]

/-- The commands in front of `exec` know no line that starts with its name. -/
theorem refuses_before_exec {τ : Type} [Seconds τ] :
    ∀ o ∈ (beforeFontSize ++ [fontSize, delay] : List (CommandDecl (Handler τ))).map (·.outline),
      o.refuses "exec ".toList = true := by
  -- what the handlers act on makes no difference to the names and the grammars
  show ∀ o ∈ (beforeFontSize ++ [fontSize, delay] : List (CommandDecl (Handler Rat))).map
    (·.outline), o.refuses "exec ".toList = true
  exact List.all_eq_true.mp (by decide +kernel)

end Builtins

namespace Console

variable {τ : Type} [Seconds τ] {c : Console τ} {s t : Session τ} {a : String} {xs : List String}
  {outcome : Outcome}

/-- A registered name runs the statements that its text writes, one level deeper. -/
theorem returns_registered_alias (h : Text.Separates xs a) {name line : String}
    {aliases : AliasTable} (hregister : s.aliases.register name a = .ok aliases)
    (hline : Text.trim line = Text.trim name) (hdepth : s.depth < c.config.maxAliasDepth) :
    c.Returns (.dispatch line) { s with aliases } outcome t ↔
      ∃ u, c.Runs xs (({ s with aliases } : Session τ).expanding (Text.trim name) xs.length)
        outcome u ∧ t = { u with depth := s.depth } := by
  obtain ⟨hne, hexpand⟩ := AliasTable.expand_of_register hregister
  rw [h.statements_eq] at hexpand
  have hhandling : c.handling { s with aliases } line = .aliased := by
    unfold handling
    dsimp only
    rw [hline, if_neg hne, hexpand]
  rw [returns_dispatch_iff, hhandling]
  dsimp only [Treats]
  rw [hline, hexpand]
  have hback {u : Session τ}
      (hu : c.Runs xs (({ s with aliases } : Session τ).expanding (Text.trim name) xs.length)
        outcome u) : u.depth - 1 = s.depth := by
    rw [hu.depth_eq]
    exact Nat.add_sub_cancel s.depth 1
  simp only [if_neg (Nat.not_le.mpr hdepth), Option.some.injEq, exists_eq_left']
  refine exists_congr fun u => and_congr_right fun hu => ?_
  rw [hback hu]

/-- A command bound to a hook runs the statements that it writes when the hook is fired. -/
theorem returns_registered_event (h : Text.Separates xs a) {name : String} {hook : LifecycleHook}
    {hooks : EventHooks} (hregister : s.hooks.register name a = .ok (hook, hooks)) :
    c.Returns (.fire hook) { s with hooks } outcome t ↔ outcome = .ok () ∧ ∃ outcome' u,
      c.Runs xs (firing hook (Text.trim a) { s with hooks }) outcome' u ∧
        t = u.reportFailure outcome' := by
  obtain rfl := EventHooks.of_register hregister
  have hcommand : (s.hooks.bind hook a).command hook = some (Text.trim a) := by
    rw [EventHooks.bind, EventHooks.command_set, if_pos rfl]
  rw [returns_fire]
  dsimp only
  rw [hcommand]
  dsimp only
  rw [Text.statements_trim, h.statements_eq]

/-- A line whose handler runs a text runs the statements that the text writes. -/
theorem returns_sequence (h : Text.Separates xs a) {line : String} (hline : Text.trim line ≠ "")
    (halias : s.aliases.expand (Text.trim line) = none) {command : Command (Handler τ)}
    {binding : Binding (Handler τ)} {values : List String}
    (hresolve : c.registry.resolve (Text.trim line) = some (.invoke command binding values))
    (hhandler : binding.handler values = .call (.runSequence a)) :
    c.Returns (.dispatch line) s outcome t ↔
      c.Runs xs (s.record (binding.note command (Text.trim line))) outcome t := by
  have hhandling : c.handling s line = .valid := by
    unfold handling
    dsimp only
    rw [if_neg hline, halias, hresolve]
  have hfuel (t' : Session τ) : (∃ fuel, c.perform fuel (.runSequence a)
      (s.record (binding.note command (Text.trim line))) = some (outcome, t')) ↔
      c.Returns (.runSequence a) (s.record (binding.note command (Text.trim line))) outcome t' :=
    Iff.rfl
  rw [returns_dispatch_iff, hhandling, ← h.statements_eq, ← returns_runSequence, ← hfuel]
  dsimp only [Treats]
  rw [hresolve]
  constructor
  · rintro ⟨_, _, _, ⟨⟩, fuel, hf⟩
    rw [hhandler, Action.run_call] at hf
    exact ⟨fuel, hf⟩
  · rintro ⟨fuel, hf⟩
    refine ⟨command, binding, values, rfl, fuel, ?_⟩
    rw [hhandler, Action.run_call]
    exact hf

/-- A line of `exec` and a text invokes the handler, which runs the text. -/
theorem IsBuiltin.resolve_exec (hc : c.IsBuiltin) (hne : a ≠ "") (hasks : a ≠ "?")
    (hbreak : '\n' ∉ a.toList) : ∃ command binding,
      c.registry.resolve ("exec " ++ a) = some (.invoke command binding [a]) ∧
      binding.handler [a] = .call (.runSequence a) := by
  have hbuild : Registry.build ((Builtins.beforeFontSize ++ [Builtins.fontSize, Builtins.delay]) ++
      Builtins.exec :: []) = .ok c.registry := hc
  obtain ⟨command, hcommand, hresolves⟩ :=
    Registry.resolve_of_declared hbuild Builtins.refuses_before_exec
  obtain ⟨hname, hbindings⟩ := CommandDecl.of_build hcommand
  obtain ⟨binding, rest, hbinding, -, hcons⟩ := List.forall₂_cons_left_iff.mp hbindings
  obtain ⟨hsignature, hhandler⟩ := SignatureDecl.of_build hbinding
  refine ⟨command, binding, hresolves _ _ _ String.toList_append ?_, ?_⟩
  · have hhelp : command.isHelpRequest ("exec " ++ a) = false := by
      have htrim : (Builtins.exec : CommandDecl (Handler τ)).trimmedName = "exec" := by
        show Text.trim "exec" = "exec"
        decide +kernel
      rw [Bool.eq_false_iff, ne_eq, Command.isHelpRequest_iff, hname, htrim]
      rintro ⟨blank, -, h | h⟩
      · obtain ⟨-, ha⟩ : ' ' = blank ∧ a.toList = ['?'] := by simpa using congrArg String.toList h
        exact hasks (String.toList_inj.mp ha)
      · have hchars := congrArg String.toList h
        rw [String.toList_append, String.append_assoc, String.toList_append] at hchars
        exact absurd (List.cons.inj hchars).1 (by decide)
    have hcompile : binding.signature = .ofTokens Builtins.execText Builtins.execTokens :=
      Except.ok.inj (hsignature.symm.trans Builtins.compile_exec)
    unfold Registry.resolveIn Command.matchLine
    rw [hhelp, hcons, List.findSome?_cons, hcompile, Builtins.captures?_exec hne hbreak]
    rfl
  · rw [← Option.some.inj hhandler]
    rfl

/-- So a line of `exec` runs the statements that its text writes. -/
theorem IsBuiltin.returns_exec (hc : c.IsBuiltin) (h : Text.Separates xs a) {line : String}
    (hline : Text.trim line = "exec " ++ a) (hasks : a ≠ "?") (hbreak : '\n' ∉ a.toList)
    (halias : s.aliases.expand (Text.trim line) = none) : ∃ command binding,
      c.registry.resolve (Text.trim line) = some (.invoke command binding [a]) ∧
      (c.Returns (.dispatch line) s outcome t ↔
        c.Runs xs (s.record (binding.note command (Text.trim line))) outcome t) := by
  have hne : a ≠ "" := by
    rintro rfl
    have htrim := Text.trim_trim line
    rw [hline] at htrim
    exact absurd htrim (by decide +kernel)
  obtain ⟨command, binding, hresolve, hhandler⟩ := hc.resolve_exec hne hasks hbreak
  rw [← hline] at hresolve
  refine ⟨command, binding, hresolve, returns_sequence h ?_ halias hresolve hhandler⟩
  rw [hline]
  simp

/-- **Separators.** A text is cut at a semicolon into what its parts are cut into, and trimming it
makes no difference. It is cut into statements, of which there can be any, and a text is cut into a
list of statements if and only if it writes them in turn, with semicolons in between and any blanks
and further semicolons around. So texts that write the same statements run the same: as a sequence,
as the text of `exec`, as that of an alias, and as the command of a hook. -/
theorem runs_separated (c : Console τ) (s : Session τ) (a b : String) :
    Text.statements (a ++ ";" ++ b) = Text.statements a ++ Text.statements b ∧
      (∀ x ∈ Text.statements a, x ≠ "" ∧ Text.trim x = x ∧ ';' ∉ x.toList) ∧
      Text.statements (Text.trim a) = Text.statements a ∧
      (∀ xs : List String, (∀ x ∈ xs, x ≠ "" ∧ Text.trim x = x ∧ ';' ∉ x.toList) →
        Text.Separates xs (";".intercalate xs)) ∧
      (∀ xs, Text.Separates xs a ↔ Text.statements a = xs) ∧
      ∀ xs, Text.Separates xs a → ∀ outcome t,
        (c.Returns (.runSequence a) s outcome t ↔ c.Runs xs s outcome t) ∧
        (c.IsBuiltin → ∀ line, Text.trim line = "exec " ++ a → a ≠ "?" → '\n' ∉ a.toList →
          s.aliases.expand (Text.trim line) = none → ∃ command binding,
            c.registry.resolve (Text.trim line) = some (.invoke command binding [a]) ∧
            (c.Returns (.dispatch line) s outcome t ↔
              c.Runs xs (s.record (binding.note command (Text.trim line))) outcome t)) ∧
        (∀ name aliases, s.aliases.register name a = .ok aliases →
          s.depth < c.config.maxAliasDepth → ∀ line, Text.trim line = Text.trim name →
          (c.Returns (.dispatch line) { s with aliases } outcome t ↔ ∃ u,
            c.Runs xs (({ s with aliases } : Session τ).expanding (Text.trim name) xs.length)
              outcome u ∧ t = { u with depth := s.depth })) ∧
        ∀ name hook hooks, s.hooks.register name a = .ok (hook, hooks) →
          (c.Returns (.fire hook) { s with hooks } outcome t ↔ outcome = .ok () ∧ ∃ outcome' u,
            c.Runs xs (firing hook (Text.trim a) { s with hooks }) outcome' u ∧
              t = u.reportFailure outcome') := by
  refine ⟨Text.statements_append a b,
    fun x hx => Text.isStatement_iff.mp (Text.isStatement_of_mem hx), Text.statements_trim a,
    fun xs hxs => Text.separates_intercalate fun x hx => Text.isStatement_iff.mpr (hxs x hx),
    fun xs => Text.statements_eq_iff.symm, fun xs hxs outcome t => ⟨?_, ?_, ?_, ?_⟩⟩
  · rw [returns_runSequence, hxs.statements_eq]
  · exact fun hc _ hline hasks hbreak halias => hc.returns_exec hxs hline hasks hbreak halias
  · exact fun _ _ hregister hdepth _ hline => returns_registered_alias hxs hregister hline hdepth
  · exact fun _ _ _ hregister => returns_registered_event hxs hregister

/-- Two statements with blanks and further semicolons around them run the same in all four ways as
without. -/
theorem runs_separated_spaced :
    let c := exact .standard
    let s := Session.remembering c.config .empty
    let xs := ["print a b", "print c"]
    let spaced := "; print a b ;;\t print c ;"
    let line := "exec " ++ spaced
    Text.Separates xs spaced ∧
      (∀ x ∈ xs, x ≠ "" ∧ Text.trim x = x ∧ ';' ∉ x.toList) ∧
      Text.statements ("print a b" ++ ";" ++ "\t print c ;") = xs ∧
      (∃ t, c.Returns (.runSequence "print a b;print c") s (.ok ()) t ∧
        c.Returns (.runSequence spaced) s (.ok ()) t ∧
        t.output = [.line .info "a b", .line .info "c"]) ∧
      (∃ note t, c.Returns (.dispatch line) s (.ok ()) t ∧ c.Runs xs (s.record note) (.ok ()) t ∧
        t.output = [.line .info "a b", .line .info "c"]) ∧
      (∃ aliases t, s.aliases.register " g" spaced = .ok aliases ∧
        c.Returns (.dispatch "g ") { s with aliases } (.ok ()) t ∧
        t.output = [.line .info "a b", .line .info "c"]) ∧
      ∃ hooks t, s.hooks.register "onstartup" spaced = .ok (.onStartup, hooks) ∧
        c.Returns (.fire .onStartup) { s with hooks } (.ok ()) t ∧
        t.output = [.line .info "a b", .line .info "c"] := by
  intro c s xs spaced line
  have hstatements : Text.statements spaced = xs := by decide +kernel
  obtain ⟨-, hpieces, -, hjoined, hcut, hruns⟩ := runs_separated c s spaced ""
  rw [hstatements] at hpieces
  have hspaced : Text.Separates xs spaced := (hcut xs).mpr hstatements
  obtain ⟨-, -, -, -, -, hplain⟩ := runs_separated c s "print a b;print c" ""
  obtain ⟨hparts, -⟩ := runs_separated c s "print a b" "\t print c ;"
  have haliases : s.aliases.register " g" spaced =
      .ok ⟨TextMap.empty.insert "g" (Text.trim spaced)⟩ := by decide +kernel
  have hhooks : s.hooks.register "onstartup" spaced =
      .ok (.onStartup, s.hooks.bind .onStartup spaced) := by decide +kernel
  have hprints : ∀ run ∈ [c.perform 12 (.runSequence "print a b;print c") s,
      c.perform 12 (.dispatch line) s,
      runStatements (fun text => c.perform 12 (.dispatch text)) xs
        (({ s with aliases := ⟨TextMap.empty.insert "g" (Text.trim spaced)⟩ } :
          Session Rat).expanding (Text.trim " g") xs.length),
      runStatements (fun text => c.perform 12 (.dispatch text)) xs
        (firing .onStartup (Text.trim spaced) { s with hooks := s.hooks.bind .onStartup spaced })],
      ∃ r ∈ run, r.1 = .ok () ∧ r.2.output = [.line .info "a b", .line .info "c"] := by
    decide +kernel
  simp only [List.forall_mem_cons] at hprints
  obtain ⟨⟨⟨_, t₁⟩, h₁, rfl, hout₁⟩, ⟨⟨_, t₂⟩, h₂, rfl, hout₂⟩, ⟨⟨_, t₃⟩, h₃, rfl, hout₃⟩,
    ⟨⟨_, t₄⟩, h₄, rfl, hout₄⟩, -⟩ := hprints
  refine ⟨hspaced, hpieces, hparts.trans (by decide +kernel), ⟨t₁, ⟨12, h₁⟩, ?_, hout₁⟩, ?_,
    ⟨_, { t₃ with depth := s.depth }, haliases, ?_, hout₃⟩, ⟨_, t₄, hhooks, ?_, hout₄⟩⟩
  · exact (hruns xs hspaced _ _).1.mpr ((hplain xs (hjoined xs hpieces) _ _).1.mp ⟨12, h₁⟩)
  · obtain ⟨command, binding, -, hexec⟩ := (hruns xs hspaced _ t₂).2.1 (isBuiltin_exact .standard)
      line (by decide +kernel) (by decide +kernel) (by decide +kernel) (by decide +kernel)
    exact ⟨_, t₂, ⟨12, h₂⟩, hexec.mp ⟨12, h₂⟩, hout₂⟩
  · exact ((hruns xs hspaced _ _).2.2.1 _ _ haliases (by decide) _ (by decide +kernel)).mpr
      ⟨t₃, ⟨12, h₃⟩, rfl⟩
  · exact ((hruns xs hspaced _ _).2.2.2 _ _ _ hhooks).mpr ⟨rfl, _, t₄, ⟨12, h₄⟩, rfl⟩

end Console

end CommandConsole

import CommandConsole.Proofs.Registry

/-!
# CommandConsole.Proofs.Resolving — what a line is resolved to

A registry tries its commands in turn, and of each command its requests for help before its
signatures. It can also be asked for help alone, or for signatures alone; then it passes over the
other kind, so its answers need not agree with what the line is resolved to.

Most commands can be ruled out by how a line starts, whatever it goes on with. What rules them out
are their names and grammars, which their declarations show.

* `Registry.exists_of_resolve`: the commands before the one that a line is resolved to.
* `Registry.resolve_eq_none_iff`, `Registry.matchHelp_of_resolve`,
  `Registry.matchCommand_of_resolve`: the three questions compared.
* `Command.resolveIn_of_refuses`: a command that is ruled out by the start of a line.
* `Registry.resolve_of_declared`: the declared commands before it make no difference to a command if
  they are all ruled out.
* `Registry.exists_resolve_of_declared`: nor do the signatures in front of the one that a line has.
-/

namespace CommandConsole

variable {η : Type} {r : Registry η} {line : String}

/-! ### Three questions -/

namespace Registry

theorem resolveIn_eq_none_iff {c : Command η} :
    resolveIn line c = none ↔ c.isHelpRequest line = false ∧ c.matchLine line = none := by
  unfold resolveIn
  cases c.isHelpRequest line <;> simp

/-- What a line is resolved to comes from one command, and those before it do not know the line. -/
theorem exists_of_resolve {resolution : Resolution η} (h : r.resolve line = some resolution) :
    ∃ before c after, r.commands = before ++ c :: after ∧ resolveIn line c = some resolution ∧
      ∀ d ∈ before, d.isHelpRequest line = false ∧ d.matchLine line = none := by
  obtain ⟨before, c, after, hcommands, hc, hbefore⟩ := List.findSome?_eq_some_iff.mp h
  exact ⟨before, c, after, hcommands, hc, fun d hd => resolveIn_eq_none_iff.mp (hbefore d hd)⟩

/-- A line that is resolved to nothing neither asks for help nor has a signature. -/
theorem resolve_eq_none_iff :
    r.resolve line = none ↔ r.matchHelp line = none ∧ r.isValid line = false := by
  unfold resolve matchHelp isValid matchCommand
  rw [Option.isSome_eq_false_iff, Option.isNone_iff_eq_none, List.findSome?_eq_none_iff,
    List.find?_eq_none, List.findSome?_eq_none_iff]
  simp only [resolveIn_eq_none_iff, Bool.not_eq_true]
  exact ⟨fun h => ⟨fun c hc => (h c hc).1, fun c hc => (h c hc).2⟩,
    fun ⟨hhelp, hmatch⟩ c hc => ⟨hhelp c hc, hmatch c hc⟩⟩

/-- A line that is resolved to help asks for help on that command first. -/
theorem matchHelp_of_resolve {c : Command η} (h : r.resolve line = some (.help c)) :
    r.matchHelp line = some c := by
  obtain ⟨before, d, after, hcommands, hd, hbefore⟩ := exists_of_resolve h
  unfold resolveIn at hd
  split at hd
  · next hhelp =>
    cases hd
    refine List.find?_eq_some_iff_append.mpr ⟨hhelp, before, after, hcommands, fun d hmem => ?_⟩
    rw [(hbefore d hmem).1]
    rfl
  · obtain ⟨_, -, heq⟩ := Option.map_eq_some_iff.mp hd
    cases heq

/-- A line that is resolved to a signature has that signature first. -/
theorem matchCommand_of_resolve {c : Command η} {b : Binding η} {values : List String}
    (h : r.resolve line = some (.invoke c b values)) : r.matchCommand line = some (b, values) := by
  obtain ⟨before, d, after, hcommands, hd, hbefore⟩ := exists_of_resolve h
  unfold resolveIn at hd
  split at hd
  · cases hd
  · obtain ⟨_, hmatch, heq⟩ := Option.map_eq_some_iff.mp hd
    cases heq
    exact List.findSome?_eq_some_iff.mpr
      ⟨before, c, after, hcommands, hmatch, fun d hmem => (hbefore d hmem).2⟩

end Registry

/-! ### Lines ruled out by how they start -/

namespace Template

/-- Whether no line with this start belongs to the template, as far as its single characters
tell. -/
def refuses : Template → List Char → Bool
  | .one set :: steps, c :: cs => !set.contains c || refuses steps cs
  | .cut :: steps, cs => refuses steps cs
  | [], _ :: _ => true
  | _, _ => false

theorem split?_of_refuses {t : Template} {front : List Char} (h : t.refuses front = true)
    (rest : List Char) : split? t (front ++ rest) = none := by
  fun_induction refuses t front with
  | case1 set steps c cs ih =>
    rw [List.cons_append, split?]
    cases hc : set.contains c with
    | false => rfl
    | true =>
      rw [hc] at h
      rw [ih h]
      rfl
  | case2 steps cs ih =>
    rw [split?, ih h]
    rfl
  | case3 c cs => rw [List.cons_append, split?]
  | case4 => cases h

theorem splitLine?_of_refuses {t : Template} {front : List Char} (h : t.refuses front = true)
    (rest : List Char) : splitLine? t (front ++ rest) = none :=
  (splitLine?_eq_split? t _).trans (split?_of_refuses h rest)

end Template

/-- Whether a line with this start cannot have the signature. -/
def LineRule.refuses (front : List Char) : LineRule → Bool
  | written steps => steps.refuses front
  | custom _ => false

theorem LineRule.captures?_of_refuses {rule : LineRule} {front rest : List Char}
    (h : rule.refuses front = true) (hline : line.toList = front ++ rest) :
    rule.captures? line = none := by
  cases rule with
  | written steps =>
    show (steps.splitLine? line.toList).map everyOther = none
    rw [hline, Template.splitLine?_of_refuses h]
    rfl
  | custom pattern => cases h

namespace Command

variable {c : Command η} {front rest : List Char}

/-- Whether a line with this start cannot ask for help on a command with this name. -/
def helpRefuses (front : List Char) (name : String) : Bool :=
  (helpTemplates name).all (·.refuses front)

/-- Whether a line with this start asks nothing of the command. -/
def refuses (c : Command η) (front : List Char) : Bool :=
  helpRefuses front c.name && c.bindings.all (·.signature.rule.refuses front)

theorem isHelpRequest_of_helpRefuses (h : helpRefuses front c.name = true)
    (hline : line.toList = front ++ rest) : c.isHelpRequest line = false := by
  refine List.any_eq_false.mpr fun t ht => ?_
  rw [Template.accepts, hline, Template.splitLine?_of_refuses (List.all_eq_true.mp h t ht)]
  exact Bool.false_ne_true

theorem matchLine_of_refuses (h : c.refuses front = true) (hline : line.toList = front ++ rest) :
    c.matchLine line = none := by
  obtain ⟨-, hbindings⟩ := Bool.and_eq_true_iff.mp h
  refine List.findSome?_eq_none_iff.mpr fun b hb => ?_
  have hnone : b.signature.captures? line = none :=
    LineRule.captures?_of_refuses (List.all_eq_true.mp hbindings b hb) hline
  rw [hnone]
  rfl

theorem resolveIn_of_refuses (h : c.refuses front = true) (hline : line.toList = front ++ rest) :
    Registry.resolveIn line c = none :=
  Registry.resolveIn_eq_none_iff.mpr
    ⟨isHelpRequest_of_helpRefuses (Bool.and_eq_true_iff.mp h).1 hline, matchLine_of_refuses h hline⟩

end Command

/-! ### Declared commands -/

/-- Whether a line with this start cannot have the signature that is meant. -/
def Grammar.refuses (front : List Char) (g : Grammar) : Bool :=
  match g.compile with
  | .ok signature => signature.rule.refuses front
  | .error _ => true

/-- What lines a declared command knows: its name and its grammars. -/
structure Outline where
  name : String
  grammars : List Grammar

/-- Whether a line with this start asks nothing of such a command. -/
def Outline.refuses (front : List Char) (o : Outline) : Bool :=
  Command.helpRefuses front (Text.trim o.name) && o.grammars.all (·.refuses front)

namespace CommandDecl

/-- The name and the grammars of the declaration. -/
def outline (d : CommandDecl η) : Outline := ⟨d.name, d.signatures.map (·.grammar)⟩

theorem refuses_of_build {d : CommandDecl η} {c : Command η} {front : List Char}
    (h : d.build = .ok c) (hd : d.outline.refuses front = true) : c.refuses front = true := by
  obtain ⟨hname, hbindings⟩ := of_build h
  obtain ⟨hhelp, hgrammars⟩ := Bool.and_eq_true_iff.mp hd
  refine Bool.and_eq_true_iff.mpr ⟨by rw [hname]; exact hhelp, List.all_eq_true.mpr fun b hb => ?_⟩
  obtain ⟨sd, hsd, hbuild⟩ := exists_of_forall₂ hbindings hb
  have hrefuses := List.all_eq_true.mp hgrammars _ (List.mem_map_of_mem hsd)
  rwa [Grammar.refuses, (SignatureDecl.of_build hbuild).1] at hrefuses

end CommandDecl

/-- A line that the declared commands before a command do not know is resolved as the command
resolves it. -/
theorem Registry.resolve_of_declared {before after : List (CommandDecl η)} {d : CommandDecl η}
    {front : List Char} (h : build (before ++ d :: after) = .ok r)
    (hbefore : ∀ o ∈ before.map (·.outline), o.refuses front = true) :
    ∃ c, d.build = .ok c ∧ ∀ line rest resolution, line.toList = front ++ rest →
      resolveIn line c = some resolution → r.resolve line = some resolution := by
  have hcommands := of_build h
  unfold resolve
  generalize r.commands = commands at hcommands
  clear h
  induction before generalizing commands with
  | nil =>
    cases hcommands with
    | @cons _ c _ commands hd _ =>
      refine ⟨c, hd, fun line rest resolution _ hc => ?_⟩
      rw [List.findSome?_cons, hc]
  | cons first before ih =>
    cases hcommands with
    | @cons _ c _ commands hfirst hlater =>
      rw [List.map_cons] at hbefore
      obtain ⟨hrefuses, hbefore⟩ := List.forall_mem_cons.mp hbefore
      obtain ⟨c', hd, hresolves⟩ := ih hbefore commands hlater
      refine ⟨c', hd, fun line rest resolution hline hc => ?_⟩
      have hnone : resolveIn line c = none :=
        Command.resolveIn_of_refuses (CommandDecl.refuses_of_build hfirst hrefuses) hline
      rw [List.findSome?_cons, hnone]
      exact hresolves line rest resolution hline hc

/-- If it has no signature in front of one that gives these values, the line is resolved to this
one. -/
theorem Registry.exists_resolve_of_declared {before after : List (CommandDecl η)}
    {d : CommandDecl η} {earlier later : List (SignatureDecl η)} {sd : SignatureDecl η}
    {front rest : List Char} {signature : Signature} {values : List String}
    (h : build (before ++ d :: after) = .ok r)
    (hbefore : ∀ o ∈ before.map (·.outline), o.refuses front = true)
    (hhelp : Command.helpRefuses front d.trimmedName = true)
    (hsignatures : d.signatures = earlier ++ sd :: later)
    (hearlier : ∀ g ∈ earlier.map (·.grammar), g.refuses front = true)
    (hgrammar : sd.grammar.compile = .ok signature) (hline : line.toList = front ++ rest)
    (hvalues : signature.captures? line = some values) :
    ∃ command binding, r.resolve line = some (.invoke command binding values) ∧
      binding.signature = signature ∧ sd.handler = some binding.handler := by
  obtain ⟨command, hcommand, hresolves⟩ := resolve_of_declared h hbefore
  obtain ⟨hname, hbindings⟩ := CommandDecl.of_build hcommand
  rw [hsignatures] at hbindings
  obtain ⟨ahead, behind, hahead, hbehind, hsplit⟩ := exists_of_forall₂_append hbindings
  obtain ⟨binding, others, hbinding, -, rfl⟩ := List.forall₂_cons_left_iff.mp hbehind
  obtain ⟨hsignature, hhandler⟩ := SignatureDecl.of_build hbinding
  obtain rfl : signature = binding.signature := Except.ok.inj (hgrammar.symm.trans hsignature)
  refine ⟨command, binding, hresolves _ _ _ hline ?_, rfl, hhandler⟩
  have hnone : ahead.findSome? (fun b => (b.signature.captures? line).map (b, ·)) = none := by
    refine List.findSome?_eq_none_iff.mpr fun b hb => ?_
    obtain ⟨sd', hsd', hbuild⟩ := exists_of_forall₂ hahead hb
    have hrefuses := hearlier _ (List.mem_map_of_mem hsd')
    rw [Grammar.refuses, (SignatureDecl.of_build hbuild).1] at hrefuses
    have hnot : b.signature.captures? line = none := LineRule.captures?_of_refuses hrefuses hline
    rw [hnot]
    rfl
  unfold resolveIn Command.matchLine
  rw [Command.isHelpRequest_of_helpRefuses (hname ▸ hhelp) hline, hsplit, List.findSome?_append,
    hnone, List.findSome?_cons, hvalues]
  rfl

end CommandConsole

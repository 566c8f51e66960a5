import CommandConsole.Proofs.Normal
import CommandConsole.Proofs.Resolving

/-!
# CommandConsole.Proofs.Colouring — how a line is classed, and how it is treated

The class of a line is shown while it is composed. It is found by other questions than those that
running the line asks: it takes the line as it stands and not trimmed, asks whether any command has
it for a signature before it asks for an alias, and asks for help last. So it is not always how the
line is treated.

* `Console.handling`, `Console.Treats`: how a line is treated, and what running it comes to.
* `Console.returns_dispatch_iff`: that is what running it comes to.
* `Console.classify_eq_handling_iff`: when its class is how it is treated.
* `Console.class_of_line`: both together, and the case of a line without blanks at its ends.
-/

namespace CommandConsole

variable {τ : Type}

namespace Console

variable {c : Console τ} {s t : Session τ} {text : String} {outcome : Outcome}

/-! ### How a line is treated -/

/-- How a line is treated when it is run. -/
def handling (c : Console τ) (s : Session τ) (text : String) : LineClass :=
  let line := Text.trim text
  if line = "" then .empty
  else match s.aliases.expand line with
    | some _ => .aliased
    | none =>
      match c.registry.resolve line with
      | none => .invalid
      | some (.help _) => .help
      | some (.invoke ..) => .valid

section Running

variable [Seconds τ]

/-- What running a line comes to that is treated like this: nothing happens; the statements of an
alias are run, one level deeper, or they nest too deep; the help on a command is shown; a handler is
run with the values in the line; or the line is rejected. -/
def Treats (c : Console τ) (text : String) (s : Session τ) (outcome : Outcome) (t : Session τ) :
    LineClass → Prop
  | .empty => outcome = .ok () ∧ t = s
  | .aliased => ∃ statements, s.aliases.expand (Text.trim text) = some statements ∧
      if c.config.maxAliasDepth ≤ s.depth then
        outcome = .error (.recursionLimit (Text.trim text) c.config.maxAliasDepth) ∧ t = s
      else ∃ u, c.Runs statements (s.expanding (Text.trim text) statements.length) outcome u ∧
        t = { u with depth := u.depth - 1 }
  | .help => ∃ command, c.registry.resolve (Text.trim text) = some (.help command) ∧
      outcome = .ok () ∧ t = s.info command.helpText
  | .valid => ∃ command binding values,
      c.registry.resolve (Text.trim text) = some (.invoke command binding values) ∧
      ∃ fuel, (binding.handler values).run (c.perform fuel) c.view
        (s.record (binding.note command (Text.trim text))) = some (outcome, t)
  | .invalid => outcome = .error .dispatchRejected ∧ t = s

omit [Seconds τ] in
theorem exists_const_iff {outcome' : Outcome} {u : Session τ} :
    (∃ _ : Nat, (some (outcome', u) : Result τ Outcome) = some (outcome, t)) ↔
      outcome = outcome' ∧ t = u := by
  constructor
  · rintro ⟨-, h⟩
    cases h
    exact ⟨rfl, rfl⟩
  · rintro ⟨rfl, rfl⟩
    exact ⟨0, rfl⟩

/-- Running an alias is refusing it or running its statements. -/
theorem exists_expandAlias_iff {name : String} {statements : List String} :
    (∃ fuel, c.expandAlias (fun text => c.perform fuel (.dispatch text)) name statements s =
      some (outcome, t)) ↔
      if c.config.maxAliasDepth ≤ s.depth then
        outcome = .error (.recursionLimit name c.config.maxAliasDepth) ∧ t = s
      else ∃ u, c.Runs statements (s.expanding name statements.length) outcome u ∧
        t = { u with depth := u.depth - 1 } := by
  unfold expandAlias
  dsimp only
  by_cases hd : c.config.maxAliasDepth ≤ s.depth
  · simp only [if_pos hd]
    exact exists_const_iff
  · simp only [if_neg hd]
    constructor
    · rintro ⟨fuel, hf⟩
      split at hf
      · cases hf
      · next u hu =>
        cases hf
        exact ⟨_, ⟨fuel, hu⟩, rfl⟩
    · rintro ⟨u, ⟨fuel, hu⟩, rfl⟩
      unfold Session.expanding expansionNote at hu
      refine ⟨fuel, ?_⟩
      rw [hu]

/-- **Treatment**: what running a line comes to. -/
theorem returns_dispatch_iff :
    c.Returns (.dispatch text) s outcome t ↔ c.Treats text s outcome t (c.handling s text) := by
  have hfuel : c.Returns (.dispatch text) s outcome t ↔
      ∃ fuel, c.dispatch (c.perform fuel) text s = some (outcome, t) := by
    constructor
    · rintro ⟨fuel, hf⟩
      cases fuel with
      | zero => cases hf
      | succ fuel => exact ⟨fuel, hf⟩
    · rintro ⟨fuel, hf⟩
      exact ⟨fuel + 1, hf⟩
  rw [hfuel]
  unfold handling dispatch
  dsimp only
  by_cases hline : Text.trim text = ""
  · simp only [if_pos hline]
    exact exists_const_iff
  · simp only [if_neg hline]
    cases hs : s.aliases.expand (Text.trim text) with
    | some statements =>
      dsimp only [Treats]
      rw [exists_expandAlias_iff, hs]
      simp
    | none =>
      cases hr : c.registry.resolve (Text.trim text) with
      | none => exact exists_const_iff
      | some resolution =>
        cases resolution with
        | help command =>
          dsimp only [Treats]
          rw [exists_const_iff, hr]
          simp
        | invoke command binding values =>
          dsimp only [Treats]
          rw [hr]
          constructor
          · rintro ⟨fuel, hf⟩
            exact ⟨command, binding, values, rfl, fuel, hf⟩
          · rintro ⟨_, _, _, ⟨⟩, fuel, hf⟩
            exact ⟨fuel, hf⟩

end Running

/-! ### How a line is classed -/

/-- What is known of a line that is treated like this. -/
theorem handling_spec (c : Console τ) (s : Session τ) (text : String) :
    match c.handling s text with
    | .empty => Text.trim text = ""
    | .aliased => text ≠ "" ∧ (s.aliases.lookup text).isSome = true
    | .valid => text ≠ "" ∧ s.aliases.lookup text = none ∧ ∃ command binding values,
        c.registry.resolve (Text.trim text) = some (.invoke command binding values)
    | .help => text ≠ "" ∧ s.aliases.lookup text = none ∧ ∃ command,
        c.registry.resolve (Text.trim text) = some (.help command)
    | .invalid => text ≠ "" ∧ s.aliases.lookup text = none ∧
        c.registry.resolve (Text.trim text) = none := by
  unfold handling AliasTable.expand
  dsimp only
  rw [s.aliases.lookup_trim]
  by_cases hline : Text.trim text = ""
  · rw [if_pos hline]
    exact hline
  · have hne : text ≠ "" := by
      rintro rfl
      exact hline rfl
    rw [if_neg hline]
    cases hlookup : s.aliases.lookup text with
    | some commands => exact ⟨hne, rfl⟩
    | none =>
      cases hr : c.registry.resolve (Text.trim text) with
      | none => exact ⟨hne, rfl, rfl⟩
      | some resolution =>
        cases resolution with
        | help command => exact ⟨hne, rfl, command, rfl⟩
        | invoke command binding values => exact ⟨hne, rfl, command, binding, values, rfl⟩

theorem classify_of_ne_empty (h : text ≠ "") : c.classify s text =
    if c.registry.isValid text then .valid
    else if (s.aliases.lookup text).isSome then .aliased
    else if (c.registry.matchHelp text).isSome then .help
    else .invalid := by
  unfold classify
  rw [if_neg h]

/-- **Classes**: the class of a line is how it is treated, if and only if the questions that come
before it in finding the class are answered so for the line as it stands. -/
theorem classify_eq_handling_iff :
    c.classify s text = c.handling s text ↔ match c.handling s text with
      | .empty => text = ""
      | .aliased => c.registry.isValid text = false
      | .valid => c.registry.isValid text = true
      | .help => c.registry.isValid text = false ∧ (c.registry.matchHelp text).isSome = true
      | .invalid => c.registry.isValid text = false ∧ c.registry.matchHelp text = none := by
  have hspec := c.handling_spec s text
  cases hclass : c.handling s text with
  | empty =>
    by_cases h : text = ""
    · exact iff_of_true (if_pos h) h
    · refine iff_of_false ?_ h
      rw [classify_of_ne_empty h]
      repeat' split
      all_goals exact nofun
  | aliased =>
    rw [hclass] at hspec
    obtain ⟨hne, hlookup⟩ := hspec
    rw [classify_of_ne_empty hne, hlookup]
    cases c.registry.isValid text <;> simp
  | valid | help | invalid =>
    rw [hclass] at hspec
    obtain ⟨hne, hlookup, -⟩ := hspec
    rw [classify_of_ne_empty hne, hlookup]
    cases c.registry.isValid text <;> cases c.registry.matchHelp text <;> simp

/-- A line without blanks at its ends is classed as it is treated, unless it is an alias or asks for
help and has the signature of a command too. -/
theorem classify_of_trimmed (h : Text.trim text = text) : c.classify s text = c.handling s text ↔
    (c.handling s text = .aliased ∨ c.handling s text = .help →
      c.registry.isValid text = false) := by
  have hspec := c.handling_spec s text
  rw [classify_eq_handling_iff]
  cases hclass : c.handling s text with
  | empty =>
    rw [hclass] at hspec
    exact iff_of_true (h.symm.trans hspec) (by simp)
  | aliased => simp
  | valid =>
    rw [hclass, h] at hspec
    obtain ⟨-, -, command, binding, values, hr⟩ := hspec
    have hvalid : c.registry.isValid text = true := by
      rw [Registry.isValid, Registry.matchCommand_of_resolve hr]
      rfl
    exact iff_of_true hvalid (by simp)
  | help =>
    rw [hclass, h] at hspec
    obtain ⟨-, -, command, hr⟩ := hspec
    rw [Registry.matchHelp_of_resolve hr]
    simp
  | invalid =>
    rw [hclass, h] at hspec
    obtain ⟨hhelp, hvalid⟩ := Registry.resolve_eq_none_iff.mp hspec.2.2
    exact iff_of_true ⟨hvalid, hhelp⟩ (by simp)

/-- **The class of a line.** Running a line comes to what its treatment says. Its class is its
treatment if and only if: it is empty and not only blank, if nothing happens; no command has it as
it stands for a signature, if it is an alias; one has, if it runs a handler; none has and it asks
for help as it stands, if help is shown; and neither, if it is rejected. For a line without blanks
at its ends this comes down to one case: what is an alias or asks for help may not have a signature
too. -/
theorem class_of_line [Seconds τ] (c : Console τ) (s : Session τ) (text : String) :
    (∀ outcome t, c.Returns (.dispatch text) s outcome t ↔
      c.Treats text s outcome t (c.handling s text)) ∧
    (c.classify s text = c.handling s text ↔ match c.handling s text with
      | .empty => text = ""
      | .aliased => c.registry.isValid text = false
      | .valid => c.registry.isValid text = true
      | .help => c.registry.isValid text = false ∧ (c.registry.matchHelp text).isSome = true
      | .invalid => c.registry.isValid text = false ∧ c.registry.matchHelp text = none) ∧
    (Text.trim text = text → (c.classify s text = c.handling s text ↔
      (c.handling s text = .aliased ∨ c.handling s text = .help →
        c.registry.isValid text = false))) :=
  ⟨fun _ _ => returns_dispatch_iff, classify_eq_handling_iff, classify_of_trimmed⟩

/-- A question mark behind `print` asks for help, and is classed as a text to be printed. -/
theorem class_of_line_help :
    let c := exact .standard
    let s := Session.remembering c.config .empty
    (∃ t, c.Returns (.dispatch "print ?") s (.ok ()) t ∧
      t.output = [.line .info ("print - prints text to the console\n" ++
        "  print <text|string> - prints everything after the 'print' keyword")]) ∧
      c.classify s "print ?" = .valid ∧ c.classify s "print ?" ≠ c.handling s "print ?" := by
  intro c s
  have h : (∃ r ∈ c.perform 1 (.dispatch "print ?") s, r.1 = .ok () ∧
      r.2.output = [.line .info ("print - prints text to the console\n" ++
        "  print <text|string> - prints everything after the 'print' keyword")]) ∧
      c.handling s "print ?" = .help ∧ c.classify s "print ?" = .valid ∧
      c.registry.isValid "print ?" = true := by
    decide +kernel
  obtain ⟨⟨⟨_, t⟩, ht, rfl, hout⟩, hhelp, hvalid, hsignature⟩ := h
  obtain ⟨-, hclass, -⟩ := class_of_line c s "print ?"
  refine ⟨⟨t, ⟨1, ht⟩, hout⟩, hvalid, ?_⟩
  rw [Ne, hclass, hhelp]
  intro hspared
  rw [hsignature] at hspared
  exact Bool.false_ne_true hspared.1.symm

end Console

end CommandConsole

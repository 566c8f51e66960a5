import CommandConsole.Proofs.Building

/-!
# CommandConsole.Proofs.Asking — which lines ask for help

A line asks for help on a command if it is the name of the command, a blank and a question mark, or
the word `help`, a blank and the name. The name stands for itself, whatever signs are in it, and
there is nothing else in the line, at neither of its ends.

* `AsksAbout`: the lines that ask for help on a name.
* `Command.isHelpRequest_iff`: a command is asked about by these lines.
* `Pattern.read_escaped`: a name is read as its characters in turn.
* `Registry.help_literal`: the requests for help on the commands of a registry.
-/

namespace CommandConsole

/-- The line is the name, a blank and a question mark, or `help`, a blank and the name. -/
def AsksAbout (name line : String) : Prop :=
  ∃ blank : Char, Text.isBlank blank = true ∧
    (line = name ++ String.singleton blank ++ "?" ∨ line = "help" ++ String.singleton blank ++ name)

/-! ### Lines of a template -/

namespace Template

variable {t : Template} {cs : List Char}

theorem isSome_split?_nil : (split? [] cs).isSome = true ↔ cs = [] := by
  cases cs <;> simp [split?]

theorem isSome_split?_one {set : CharSet} : (split? (.one set :: t) cs).isSome = true ↔
    ∃ c rest, cs = c :: rest ∧ set.contains c = true ∧ (split? t rest).isSome = true := by
  cases cs with
  | nil => simp [split?]
  | cons c cs =>
    rw [split?]
    by_cases hc : set.contains c = true <;> simp [hc]

theorem isSome_split?_exactly (text : List Char) :
    (split? (exactly text ++ t) cs).isSome = true ↔
      ∃ rest, cs = text ++ rest ∧ (split? t rest).isSome = true := by
  induction text generalizing cs with
  | nil => simp [exactly]
  | cons c text ih =>
    show (split? (.one (.only c) :: (exactly text ++ t)) cs).isSome = true ↔ _
    rw [isSome_split?_one]
    simp only [ih, CharSet.contains_only, decide_eq_true_eq]
    constructor
    · rintro ⟨_, _, rfl, rfl, rest, rfl, hrest⟩
      exact ⟨rest, rfl, hrest⟩
    · rintro ⟨rest, rfl, hrest⟩
      exact ⟨c, text ++ rest, rfl, rfl, rest, rfl, hrest⟩

end Template

namespace Command

open Template

variable {η : Type}

/-- **Requests**: the lines that ask for help on a command. -/
theorem isHelpRequest_iff {c : Command η} {line : String} :
    c.isHelpRequest line = true ↔ AsksAbout c.name line := by
  have hasked : (split? (exactly c.name.toList ++ [.one Text.blanks, .one (.only '?')])
      line.toList).isSome = true ↔
      ∃ blank, Text.isBlank blank = true ∧ line = c.name ++ String.singleton blank ++ "?" := by
    simp only [isSome_split?_exactly, isSome_split?_one, isSome_split?_nil, CharSet.contains_only,
      decide_eq_true_eq]
    constructor
    · rintro ⟨_, hline, blank, _, rfl, hblank, _, _, rfl, rfl, rfl⟩
      exact ⟨blank, hblank, String.toList_inj.mp (by simp [hline])⟩
    · rintro ⟨blank, hblank, rfl⟩
      exact ⟨[blank, '?'], by simp, blank, ['?'], rfl, hblank, '?', [], rfl, rfl, rfl⟩
  have hnamed : (split? (exactly "help".toList ++ .one Text.blanks :: exactly c.name.toList)
      line.toList).isSome = true ↔
      ∃ blank, Text.isBlank blank = true ∧ line = "help" ++ String.singleton blank ++ c.name := by
    have hname (rest : List Char) :
        (split? (exactly c.name.toList) rest).isSome = true ↔ rest = c.name.toList := by
      rw [← List.append_nil (exactly c.name.toList), isSome_split?_exactly]
      simp [isSome_split?_nil]
    simp only [isSome_split?_exactly, isSome_split?_one, hname]
    constructor
    · rintro ⟨_, hline, blank, _, rfl, hblank, rfl⟩
      exact ⟨blank, hblank, String.toList_inj.mp (by simp [hline])⟩
    · rintro ⟨blank, hblank, rfl⟩
      exact ⟨blank :: c.name.toList, by simp, blank, _, rfl, hblank, rfl⟩
  unfold isHelpRequest helpTemplates AsksAbout accepts
  simp only [List.any_cons, List.any_nil, Bool.or_false, Bool.or_eq_true, splitLine?_eq_split?,
    hasked, hnamed, and_or_left, exists_or]

end Command

/-! ### Names -/

namespace Pattern

/-- A row of characters is read as these characters in turn. -/
theorem Row.read_eq {cs : List Char} {sets : List CharSet} (h : Row cs sets) :
    Expr.read cs = .ok (.sequence (sets.map Expr.one)) := by
  obtain ⟨ts, items, hlex, hadd, hexprs, hdepth⟩ := h
  obtain ⟨ending, hfold⟩ := hadd {} rfl
  rw [List.append_nil] at hfold
  unfold Expr.read
  rw [hlex.tokens_eq]
  refine (ofTokens_eq hfold rfl rfl fun item hitem => ?_).trans ?_
  · exact Nat.le_trans (hdepth item (List.mem_reverse.mp hitem)) (by decide)
  · dsimp only
    rw [List.reverse_reverse, hexprs]

/-- **Names**: written so that it stands for itself, a text is read as its characters in turn. -/
theorem read_escaped (text : String) : Expr.read (escaped text).toList =
    .ok (.sequence (text.toList.map fun c => .one (.only c))) := by
  rw [escaped, String.toList_ofList, (row_escaped text.toList).read_eq, List.map_map]
  rfl

end Pattern

/-- **Help.** In a registry the requests for help on a command are the lines that are its name,
trimmed, with a blank and a question mark, or `help` with a blank and the name, and no others. The
pattern they are written as can be read, whatever the name is, and has a match in these lines and no
others; nothing but its size can be held against it. In it the name is read as its characters in
turn. -/
theorem Registry.help_literal {η : Type} {ds : List (CommandDecl η)} {r : Registry η}
    (h : build ds = .ok r) : List.Forall₂ (fun d c =>
      (∀ line, c.isHelpRequest line = true ↔ AsksAbout (Text.trim d.name) line) ∧
        (∃ e, Pattern.Expr.read (Command.helpPattern (Text.trim d.name)).toList = .ok e ∧
          Pattern.read (Command.helpPattern (Text.trim d.name)).toList =
            (if Pattern.fits e then .ok e.toPattern else .error .tooLarge) ∧
          ∀ line, (e.toPattern.find? line).isSome = true ↔ AsksAbout (Text.trim d.name) line) ∧
        Pattern.Expr.read (Pattern.escaped (Text.trim d.name)).toList =
          .ok (.sequence ((Text.trim d.name).toList.map fun ch => .one (.only ch))))
      ds r.commands := by
  refine (build_eq_ok_iff_makes.mp h).2.imp fun d c hmakes => ?_
  have hname : c.name = Text.trim d.name := hmakes.name
  obtain ⟨e, hread, hlines⟩ := c.exists_helpPattern
  rw [← hname]
  refine ⟨fun line => Command.isHelpRequest_iff, ⟨e, hread, Pattern.read_of_read hread,
    fun line => ?_⟩, Pattern.read_escaped c.name⟩
  rw [hlines]
  exact Command.isHelpRequest_iff

/-- A name that is full of signs, with blanks around it: it is asked about as it stands. -/
theorem Registry.help_literal_signs :
    let name := "a+b (c)|^$ \"q\" -é\\"
    let d : CommandDecl Nat := ⟨" " ++ name ++ "\t", "", []⟩
    ∃ r c e, build [d] = .ok r ∧ r.commands = [c] ∧ c.name = name ∧
      c.isHelpRequest (name ++ "\u2003?") = true ∧ c.isHelpRequest ("help\t" ++ name) = true ∧
      c.isHelpRequest ("help " ++ name ++ " ") = false ∧ c.isHelpRequest "a ?" = false ∧
      Pattern.Expr.read (Command.helpPattern name).toList = .ok e ∧
      (e.toPattern.find? (name ++ " ?")).isSome = true := by
  intro name d
  have hname : Text.trim d.name = name := by decide +kernel
  have hbuild : build [d] = .ok ⟨[⟨name, "", []⟩]⟩ := by
    rw [← hname]
    rfl
  obtain ⟨⟨hasked, ⟨e, hread, -, hlines⟩, -⟩, -⟩ := List.forall₂_cons.mp (help_literal hbuild)
  rw [hname] at hread
  simp only [hname] at hasked hlines
  refine ⟨_, _, e, hbuild, rfl, rfl, (hasked _).mpr ⟨'\u2003', by decide, .inl ?_⟩,
    (hasked _).mpr ⟨'\t', by decide, .inr rfl⟩, by decide +kernel, by decide +kernel, hread,
    (hlines _).mpr ⟨' ', by decide, .inl ?_⟩⟩
  · decide +kernel
  · decide +kernel

end CommandConsole

import CommandConsole.Proofs.Lexing
import CommandConsole.SavedState.Json

/-!
# CommandConsole.Proofs.Codec — states are read as they were saved

The saved form of a state is cut into its lexemes, the lexemes make the value of an object with
three members, and this value holds the state. Each of the three steps goes along the saved form:
entry by entry, map by map, member by member.

* `SavedState.lexemes`, `SavedState.reads_toChars`: the lexemes of the saved form.
* `SavedState.value`, `SavedState.ofLexemes?_lexemes`: the value they make.
* `SavedState.ofJson?_toJson`: the state it holds.
-/

namespace CommandConsole.SavedState

open Json

variable {cs : List Char} {ls : List Lexeme}

/-! ### Lexemes -/

/-- The lexemes of an entry. -/
def entryLexemes (entry : String × String) : List Lexeme :=
  [.string (some entry.1), .colon, .string (some entry.2)]

/-- The lexemes of entries with commas between them. -/
def entriesLexemes : List (String × String) → List Lexeme
  | [] => []
  | [entry] => entryLexemes entry
  | entry :: entries => entryLexemes entry ++ .comma :: entriesLexemes entries

/-- The lexemes of a map. -/
def mapLexemes (m : TextMap) : List Lexeme :=
  .openBrace :: entriesLexemes m.entries ++ [.closeBrace]

/-- The lexemes of a member up to its value. -/
def memberLexemes (name : String) : List Lexeme := [.string (some name), .colon]

/-- The lexemes of a state. -/
def lexemes (s : SavedState) : List Lexeme :=
  .openBrace :: memberLexemes "fontSize" ++ .integer s.fontSize :: .comma ::
    memberLexemes "aliasMap" ++ mapLexemes s.aliases ++ .comma ::
    memberLexemes "eventMap" ++ mapLexemes s.events ++ [.closeBrace]

theorem reads_entry (entry : String × String) (h : Reads cs ls) :
    Reads (entryChars entry ++ cs) (entryLexemes entry ++ ls) := by
  have hvalue :
      Reads ([':', ' '] ++ (quote entry.2 ++ cs)) (.colon :: .string (some entry.2) :: ls) :=
    ((h.quote entry.2).space rfl).colon
  have hentry := (hvalue.quote entry.1).spaces "\n    ".toList rfl
  unfold entryChars
  rw [List.append_assoc, List.append_assoc, List.append_assoc]
  exact hentry

theorem reads_entries (entries : List (String × String)) (h : Reads cs ls) :
    Reads (entriesChars entries ++ cs) (entriesLexemes entries ++ ls) := by
  induction entries with
  | nil => exact h
  | cons entry entries ih =>
    cases entries with
    | nil => exact reads_entry entry h
    | cons next entries =>
      unfold entriesChars entriesLexemes
      rw [List.append_assoc, List.append_assoc]
      exact reads_entry entry ih.comma

theorem reads_map (m : TextMap) (h : Reads cs ls) :
    Reads (mapChars m ++ cs) (mapLexemes m ++ ls) := by
  have hend : Reads ("\n  \x7d".toList ++ cs) (.closeBrace :: ls) :=
    h.closeBrace.spaces "\n  ".toList rfl
  unfold mapChars mapLexemes
  split
  · next hempty =>
    rw [List.isEmpty_iff.mp hempty]
    exact h.closeBrace.openBrace
  · rw [List.append_assoc, List.append_assoc]
    exact (reads_entries m.entries hend).openBrace

theorem reads_member (name : String) (h : Reads cs ls) :
    Reads ("\n  ".toList ++ (quote name ++ (':' :: ' ' :: cs))) (memberLexemes name ++ ls) :=
  ((h.space rfl).colon.quote name).spaces "\n  ".toList rfl

/-- The saved form of a state is cut into its lexemes. -/
theorem reads_toChars (s : SavedState) : Reads s.toChars s.lexemes := by
  have hend : Reads ['\n', '}'] [.closeBrace] := Reads.nil.closeBrace.space rfl
  have hevents := reads_member "eventMap" (reads_map s.events hend)
  have haliases := reads_member "aliasMap" (reads_map s.aliases hevents.comma)
  have hsize := reads_member "fontSize" (haliases.comma.integer s.fontSize)
  have h := hsize.openBrace
  unfold toChars lexemes
  simp only [List.append_assoc, List.cons_append] at h ⊢
  exact h

/-! ### The value -/

/-- The members that entries are read as. -/
def members (entries : List (String × String)) : List (Option String × Value) :=
  entries.map fun e => (some e.1, .string (some e.2))

/-- The value that a state is read as. -/
def value (s : SavedState) : Value :=
  .object [(some "fontSize", .integer s.fontSize),
    (some "aliasMap", .object (members s.aliases.entries)),
    (some "eventMap", .object (members s.events.entries))]

/-- Entries up to the closing brace are read as members behind those before. -/
theorem foldlM_entries (entry : String × String) (entries : List (String × String))
    (before : List (Option String × Value)) (frames : List Frame) (ls : List Lexeme) :
    (entriesLexemes (entry :: entries) ++ .closeBrace :: ls).foldlM Reader.step?
        ⟨.key before, frames⟩ =
      ls.foldlM Reader.step?
        ⟨.separator (.object (before.reverse ++ members (entry :: entries))), frames⟩ := by
  induction entries generalizing entry before with
  | nil =>
    show ls.foldlM Reader.step? ⟨.separator (.object (_ :: before).reverse), frames⟩ = _
    rw [List.reverse_cons]
    rfl
  | cons next entries ih =>
    show (entriesLexemes (next :: entries) ++ .closeBrace :: ls).foldlM Reader.step?
      ⟨.key ((some entry.1, .string (some entry.2)) :: before), frames⟩ = _
    rw [ih, List.reverse_cons, List.append_assoc]
    rfl

theorem foldlM_map (m : TextMap) (frames : List Frame) (ls : List Lexeme) :
    (mapLexemes m ++ ls).foldlM Reader.step? ⟨.value, frames⟩ =
      ls.foldlM Reader.step? ⟨.separator (.object (members m.entries)), frames⟩ := by
  unfold mapLexemes
  cases m.entries with
  | nil => rfl
  | cons entry entries =>
    -- after the opening brace a key is read as it is after a comma
    have h := foldlM_entries entry entries [] frames ls
    rw [List.append_assoc]
    cases entries <;> exact h

/-- The lexemes of a state make its value. -/
theorem ofLexemes?_lexemes (s : SavedState) : ofLexemes? s.lexemes = some s.value := by
  have hfold : s.lexemes.foldlM Reader.step? ⟨.value, []⟩ = some ⟨.separator s.value, []⟩ := by
    unfold lexemes
    simp only [List.append_assoc, List.cons_append]
    show (mapLexemes s.aliases ++ Lexeme.comma :: (memberLexemes "eventMap" ++
      (mapLexemes s.events ++ [Lexeme.closeBrace]))).foldlM Reader.step?
        ⟨.value, [.object [(some "fontSize", .integer s.fontSize)] (some "aliasMap")]⟩ = _
    rw [foldlM_map]
    show (mapLexemes s.events ++ [Lexeme.closeBrace]).foldlM Reader.step?
      ⟨.value, [.object [(some "aliasMap", .object (members s.aliases.entries)),
        (some "fontSize", .integer s.fontSize)] (some "eventMap")]⟩ = _
    rw [foldlM_map]
    rfl
  unfold ofLexemes?
  rw [hfold]
  rfl

/-! ### The state -/

theorem mapM_members (entries : List (String × String)) :
    (members entries).mapM entry? = .ok entries := by
  induction entries with
  | nil => rfl
  | cons entry entries ih =>
    show ((some entry.1, Value.string (some entry.2)) :: members entries).mapM entry? = _
    rw [List.mapM_cons, ih]
    rfl

theorem map?_members (m : TextMap) : map? (.object (members m.entries)) = .ok m := by
  show ((members m.entries).mapM entry?).map TextMap.ofList = .ok m
  rw [mapM_members]
  exact congrArg Except.ok m.ofList_entries

/-- The value of a state holds it. -/
theorem ofValue?_value {s : SavedState} (h : isFontSize s.fontSize = true) :
    ofValue? s.value = .ok s := by
  have hsize : fontSize? (.integer s.fontSize) = .ok s.fontSize := if_pos h
  have first : Members.add {} (some "fontSize", .integer s.fontSize) =
      .ok { fontSize := some s.fontSize } := by
    show (once none (fontSize? _)).map _ = _
    rw [hsize]
    rfl
  have second : Members.add { fontSize := some s.fontSize }
      (some "aliasMap", .object (members s.aliases.entries)) =
        .ok { fontSize := some s.fontSize, aliases := some s.aliases } := by
    show (once none (map? _)).map _ = _
    rw [map?_members]
    rfl
  have third : Members.add { fontSize := some s.fontSize, aliases := some s.aliases }
      (some "eventMap", .object (members s.events.entries)) =
        .ok ⟨some s.fontSize, some s.aliases, some s.events⟩ := by
    show (once none (map? _)).map _ = _
    rw [map?_members]
    rfl
  show (List.foldlM Members.add {} [_, _, _]).map ofMembers = _
  rw [List.foldlM_cons, first]
  show (List.foldlM Members.add _ [_, _]).map ofMembers = _
  rw [List.foldlM_cons, second]
  show (List.foldlM Members.add _ [_]).map ofMembers = _
  rw [List.foldlM_cons, third]
  rfl

/-- **Round trip**: the saved form of a state holds it. -/
theorem ofJson?_toJson {s : SavedState} (h : isFontSize s.fontSize = true) :
    ofJson? s.toJson = .ok s := by
  have hparse : parse? s.toJson = some s.value := by
    unfold parse? toJson
    rw [lexemes?_ofList s.reads_toChars]
    exact s.ofLexemes?_lexemes
  unfold ofJson?
  rw [hparse]
  exact ofValue?_value h

end CommandConsole.SavedState

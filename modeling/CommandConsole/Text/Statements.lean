import CommandConsole.Text.Blank

/-!
# CommandConsole.Text.Statements — texts that hold several statements

Statements are separated by semicolons. `statements` trims each and drops the blank ones, so extra
separators and blanks around them do not matter.
-/

namespace CommandConsole.Text

/-- The trimmed statements of a list of characters, blank ones dropped. -/
def statementChars (cs : List Char) : List (List Char) :=
  ((pieces (· == ';') cs).map trimChars).filter (!·.isEmpty)

/-- The statements of a text, in order. -/
def statements (s : String) : List String :=
  (statementChars s.toList).map String.ofList

/-- No statement is longer than its text. -/
theorem length_le_of_mem_statements {s statement : String} (h : statement ∈ statements s) :
    statement.length ≤ s.length := by
  obtain ⟨cs, hc, rfl⟩ := List.mem_map.mp h
  obtain ⟨piece, hp, rfl⟩ := List.mem_map.mp (List.mem_filter.mp hc).1
  rw [String.length_ofList, ← String.length_toList]
  exact Nat.le_trans (length_trimChars_le piece) (length_le_of_mem_pieces hp)

end CommandConsole.Text

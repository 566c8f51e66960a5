import CommandConsole.Text.Statements
import CommandConsole.Proofs.Trimming

/-!
# CommandConsole.Proofs.Splitting — statements and the blanks around a text

A text is cut into statements at its semicolons, and each statement is trimmed. So the blanks around
the text make no difference: they stand before its first statement and behind its last one.

* `Text.exists_pieces_prepend`, `Text.exists_pieces_append`: what is put before or behind a text goes
  to its first or last piece.
* `Text.statements_trim`: a trimmed text has the statements of the text.
-/

namespace CommandConsole.Text

section Pieces

variable {α : Type} {p : α → Bool} {added : List α}

theorem exists_pieces_prepend (h : ∀ c ∈ added, p c = false) (cs : List α) : ∃ first later,
    pieces p cs = first :: later ∧ pieces p (added ++ cs) = (added ++ first) :: later := by
  induction added with
  | nil =>
    obtain ⟨first, later, hcs⟩ := List.exists_cons_of_ne_nil (pieces_ne_nil p cs)
    exact ⟨first, later, hcs, hcs⟩
  | cons c added ih =>
    obtain ⟨hc, hadded⟩ := List.forall_mem_cons.mp h
    obtain ⟨first, later, hcs, hall⟩ := ih hadded
    exact ⟨first, later, hcs, by simp [pieces, hc, hall]⟩

theorem exists_pieces_append (h : ∀ c ∈ added, p c = false) (cs : List α) : ∃ earlier last,
    pieces p cs = earlier ++ [last] ∧ pieces p (cs ++ added) = earlier ++ [last ++ added] := by
  induction cs with
  | nil => exact ⟨[], [], rfl, pieces_eq_singleton h⟩
  | cons c cs ih =>
    obtain ⟨earlier, last, hcs, hall⟩ := ih
    by_cases hc : p c = true
    · exact ⟨[] :: earlier, last, by simp [pieces, hc, hcs], by simp [pieces, hc, hall]⟩
    · cases earlier with
      | nil => exact ⟨[], c :: last, by simp [pieces, hc, hcs], by simp [pieces, hc, hall]⟩
      | cons first earlier =>
        exact ⟨(c :: first) :: earlier, last, by simp [pieces, hc, hcs],
          by simp [pieces, hc, hall]⟩

end Pieces

variable {blank : List Char}

theorem not_semicolon_of_isBlank (h : ∀ c ∈ blank, isBlank c = true) :
    ∀ c ∈ blank, (c == ';') = false := by
  intro c hc
  rw [beq_eq_false_iff_ne]
  rintro rfl
  exact absurd (h ';' hc) (by decide)

theorem trimChars_prepend (h : ∀ c ∈ blank, isBlank c = true) (cs : List Char) :
    trimChars (blank ++ cs) = trimChars cs := by
  unfold trimChars
  rw [List.dropWhile_append_of_pos h]

theorem statementChars_prepend (h : ∀ c ∈ blank, isBlank c = true) (cs : List Char) :
    statementChars (blank ++ cs) = statementChars cs := by
  obtain ⟨first, later, hcs, hall⟩ := exists_pieces_prepend (not_semicolon_of_isBlank h) cs
  unfold statementChars
  rw [hall, hcs, List.map_cons, List.map_cons, trimChars_prepend h]

theorem statementChars_append (h : ∀ c ∈ blank, isBlank c = true) (cs : List Char) :
    statementChars (cs ++ blank) = statementChars cs := by
  obtain ⟨earlier, last, hcs, hall⟩ := exists_pieces_append (not_semicolon_of_isBlank h) cs
  unfold statementChars
  rw [hall, hcs, List.map_append, List.map_append, List.map_singleton, List.map_singleton,
    trimChars_append h]

/-- A trimmed text has the statements of the text. -/
theorem statements_trim (s : String) : statements (trim s) = statements s := by
  unfold statements
  rw [toList_trim, trimChars_eq_rdropWhile]
  refine congrArg (List.map String.ofList) ?_
  calc statementChars ((s.toList.dropWhile isBlank).rdropWhile isBlank)
      = statementChars (s.toList.dropWhile isBlank) := by
        conv_rhs =>
          rw [← List.rdropWhile_append_rtakeWhile (p := isBlank) (l := s.toList.dropWhile isBlank)]
        exact (statementChars_append (fun c hc => List.mem_rtakeWhile_imp hc) _).symm
    _ = statementChars s.toList := by
        conv_rhs => rw [← List.takeWhile_append_dropWhile (p := isBlank) (l := s.toList)]
        exact (statementChars_prepend (fun c hc => List.mem_takeWhile_imp hc) _).symm

end CommandConsole.Text

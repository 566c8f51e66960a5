/-!
# CommandConsole.Text.Pieces — cutting a text at separators

`pieces p cs` cuts a list `cs`, such as the characters of a text, at every member that satisfies `p`;
the separators are dropped and empty pieces are kept, so a text with `n` separators has `n + 1`
pieces.

* `pieces_append_sep`: cutting at a separator splits the list of pieces.
-/

namespace CommandConsole.Text

variable {α : Type}

/-- The pieces of a list between the members that satisfy `p`, empty ones included. -/
def pieces (p : α → Bool) : List α → List (List α)
  | [] => [[]]
  | c :: cs =>
    if p c then [] :: pieces p cs
    else match pieces p cs with
      | [] => [[c]]
      | w :: ws => (c :: w) :: ws

theorem pieces_ne_nil (p : α → Bool) (cs : List α) : pieces p cs ≠ [] := by
  cases cs with
  | nil => simp [pieces]
  | cons c cs =>
    unfold pieces
    split
    · simp
    · split <;> simp

theorem pieces_cons_sep {p : α → Bool} {c : α} (h : p c = true) (cs : List α) :
    pieces p (c :: cs) = [] :: pieces p cs := by
  simp [pieces, h]

theorem pieces_append_sep {p : α → Bool} {c : α} (h : p c = true) (as bs : List α) :
    pieces p (as ++ c :: bs) = pieces p as ++ pieces p bs := by
  induction as with
  | nil => simp [pieces, h]
  | cons a as ih =>
    by_cases ha : p a = true
    · simp [pieces, ha, ih]
    · simp only [List.cons_append, pieces, ha, Bool.false_eq_true, if_false, ih]
      cases hp : pieces p as with
      | nil => exact absurd hp (pieces_ne_nil p as)
      | cons w ws => simp

/-- No piece is longer than the whole. -/
theorem length_le_of_mem_pieces {p : α → Bool} {cs w : List α} (h : w ∈ pieces p cs) :
    w.length ≤ cs.length := by
  induction cs generalizing w with
  | nil => simp [pieces] at h; simp [h]
  | cons a as ih =>
    rw [List.length_cons]
    by_cases ha : p a = true
    · rw [pieces_cons_sep ha] at h
      rcases List.mem_cons.1 h with rfl | h
      · exact Nat.zero_le _
      · have := ih h
        omega
    · cases hp : pieces p as with
      | nil => exact absurd hp (pieces_ne_nil p as)
      | cons v vs =>
        simp only [pieces, ha, Bool.false_eq_true, if_false, hp] at h
        rcases List.mem_cons.1 h with rfl | h
        · have : v.length ≤ as.length := ih (by simp [hp])
          rw [List.length_cons]
          omega
        · have := ih (w := w) (by simp [hp, h])
          omega

/-- A text without separators is its own only piece. -/
theorem pieces_eq_singleton {p : α → Bool} {cs : List α} (h : ∀ c ∈ cs, p c = false) :
    pieces p cs = [cs] := by
  induction cs with
  | nil => rfl
  | cons c cs ih =>
    have hc : p c = false := h c (by simp)
    simp [pieces, hc, ih fun d hd => h d (by simp [hd])]

end CommandConsole.Text

import CommandConsole.History

/-!
# CommandConsole.Proofs.Recall — the history is a list with a cursor

The history keeps its lines in three parts, and every move shifts lines between them. Seen from
outside it is one list of lines with a cursor: at a line, which is then recalled, or behind the
last one. Moving the cursor changes no line; entering a line and editing forget what is behind it.

* `History.Cursor`: lines with a cursor, and what moves do to them.
* `History.Sound`: where no line is recalled, none is newer; every move keeps it.
* `History.Sound.apply_refines`: a move does to the history what it does to the list with a cursor.
* `History.refines_cursor`: so do moves in turn, and moving the cursor back and forth is undone.
-/

namespace CommandConsole.History

/-- What can be done to a history. -/
inductive Move where
  | commit (line : String)
  | back
  | forward
  | edit
deriving DecidableEq, Repr

/-- The line that a move recalls, and the history after it. -/
def apply (h : History) : Move → Option String × History
  | .commit line => (none, h.commit line)
  | .back => h.back
  | .forward => h.forward
  | .edit => (none, h.edit)

/-- The lines that moves in turn recall, and the history after them. -/
def run (h : History) : List Move → List (Option String) × History
  | [] => ([], h)
  | m :: ms => ((h.apply m).1 :: ((h.apply m).2.run ms).1, ((h.apply m).2.run ms).2)

/-! ### Lines with a cursor -/

/-- Lines, oldest first, with a cursor at the place of one of them or behind the last. -/
structure Cursor where
  lines : List String
  place : Nat
  place_le : place ≤ lines.length

namespace Cursor

@[ext] theorem ext {c d : Cursor} (hl : c.lines = d.lines) (hp : c.place = d.place) : c = d := by
  cases c
  cases d
  cases hl
  cases hp
  rfl

/-- The cursor behind the last line. -/
def behind (lines : List String) : Cursor := ⟨lines, lines.length, Nat.le_refl _⟩

/-- The lines up to the one at the cursor, or all of them if the cursor is behind the last. -/
def kept (c : Cursor) : List String := c.lines.take (c.place + 1)

/-- Moves the cursor to the line before, if there is one. -/
def back (c : Cursor) : Option String × Cursor :=
  if h : 0 < c.place then
    have hlt : c.place - 1 < c.lines.length := by have := c.place_le; omega
    (some c.lines[c.place - 1], ⟨c.lines, c.place - 1, Nat.le_of_lt hlt⟩)
  else (none, c)

/-- Moves the cursor to the line after, or behind the last one. -/
def forward (c : Cursor) : Option String × Cursor :=
  if h : c.place + 1 < c.lines.length then
    (some c.lines[c.place + 1], ⟨c.lines, c.place + 1, Nat.le_of_lt h⟩)
  else (none, behind c.lines)

/-- What a move does: the line that the cursor is moved to, and the cursor after it. -/
def apply (c : Cursor) : Move → Option String × Cursor
  | .commit line => (none, behind (c.kept ++ [line]))
  | .back => c.back
  | .forward => c.forward
  | .edit => (none, behind c.kept)

/-- What moves in turn do. -/
def run (c : Cursor) : List Move → List (Option String) × Cursor
  | [] => ([], c)
  | m :: ms => ((c.apply m).1 :: ((c.apply m).2.run ms).1, ((c.apply m).2.run ms).2)

/-- Moving the cursor changes no line. -/
theorem lines_back (c : Cursor) : c.back.2.lines = c.lines := by
  unfold back
  split <;> rfl

theorem lines_forward (c : Cursor) : c.forward.2.lines = c.lines := by
  unfold forward
  split <;> rfl

theorem lines_run {c : Cursor} {ms : List Move} (h : ∀ m ∈ ms, m = .back ∨ m = .forward) :
    (c.run ms).2.lines = c.lines := by
  induction ms generalizing c with
  | nil => rfl
  | cons m ms ih =>
    obtain ⟨hm, hms⟩ := List.forall_mem_cons.mp h
    refine (ih hms).trans ?_
    rcases hm with rfl | rfl
    · exact c.lines_back
    · exact c.lines_forward

end Cursor

/-- The history seen from outside. -/
def cursor (h : History) : Cursor where
  lines := h.entries
  place := h.older.length
  place_le := by
    rw [entries, List.append_assoc, List.length_append, List.length_reverse]
    exact Nat.le_add_right _ _

@[simp] theorem lines_cursor (h : History) : h.cursor.lines = h.entries := rfl

@[simp] theorem place_cursor (h : History) : h.cursor.place = h.older.length := rfl

/-- With every line older, the cursor is behind the last one. -/
theorem cursor_older (older : List String) : cursor { older } = .behind older.reverse := by
  ext1 <;> simp [entries, Cursor.behind]

/-! ### What moves keep -/

/-- No line is newer than the recalled one if none is recalled. -/
def Sound (h : History) : Prop := h.recalled = none → h.newer = []

variable {h : History}

theorem sound_empty : Sound empty := fun _ => rfl

theorem Sound.apply (hs : h.Sound) (m : Move) : (h.apply m).2.Sound := by
  cases m with
  | commit line => exact fun _ => rfl
  | edit => exact fun _ => rfl
  | back =>
    show h.back.2.Sound
    unfold back
    split
    · exact hs
    · exact nofun
  | forward =>
    show h.forward.2.Sound
    unfold forward
    split
    · exact fun _ => rfl
    · exact nofun

/-- A sound history has a recalled line, or all of its lines are older. -/
theorem Sound.eq_or (hs : h.Sound) :
    (∃ older, h = ⟨older, none, []⟩) ∨ ∃ older line newer, h = ⟨older, some line, newer⟩ := by
  obtain ⟨older, recalled, newer⟩ := h
  cases recalled with
  | none =>
    obtain rfl : newer = [] := hs rfl
    exact Or.inl ⟨older, rfl⟩
  | some line => exact Or.inr ⟨older, line, newer, rfl⟩

/-- Settling on the recalled line keeps the lines up to the cursor. -/
theorem Sound.kept_cursor (hs : h.Sound) : h.cursor.kept = h.settled.reverse := by
  rcases hs.eq_or with ⟨older, rfl⟩ | ⟨older, line, newer, rfl⟩
  · rw [cursor_older]
    exact List.take_of_length_le (Nat.le_succ older.reverse.length)
  · have hlength : (older.reverse ++ [line]).length = older.length + 1 := by simp
    show (older.reverse ++ [line] ++ newer).take (older.length + 1) = (line :: older).reverse
    rw [← hlength, List.take_left, List.reverse_cons]

/-- The recalled line is the one at the cursor. -/
theorem Sound.recalled_eq (hs : h.Sound) : h.recalled = h.cursor.lines[h.cursor.place]? := by
  rcases hs.eq_or with ⟨older, rfl⟩ | ⟨older, line, newer, rfl⟩ <;> simp [entries]

/-! ### Moves -/

theorem back_refines (h : History) :
    h.back.1 = h.cursor.back.1 ∧ h.back.2.cursor = h.cursor.back.2 := by
  obtain ⟨older, recalled, newer⟩ := h
  cases older with
  | nil => exact ⟨rfl, rfl⟩
  | cons line older =>
    have hpos : 0 < (cursor ⟨line :: older, recalled, newer⟩).place := Nat.zero_lt_succ _
    unfold Cursor.back
    rw [dif_pos hpos]
    constructor
    · simp [back, entries]
    · ext1 <;> simp [back, entries]

theorem Sound.forward_refines (hs : h.Sound) :
    h.forward.1 = h.cursor.forward.1 ∧ h.forward.2.cursor = h.cursor.forward.2 := by
  cases hnewer : h.newer with
  | nil =>
    -- the cursor is at the last line or behind it
    have hsettled : h.settled.reverse = h.entries := by
      rcases hs.eq_or with ⟨older, rfl⟩ | ⟨older, line, newer, rfl⟩
      · simp [entries, settled]
      · obtain rfl : newer = [] := hnewer
        simp [entries, settled]
    have hend : ¬ h.cursor.place + 1 < h.cursor.lines.length := by
      rw [lines_cursor, place_cursor, ← hsettled, List.length_reverse]
      unfold settled
      split <;> simp
    unfold forward Cursor.forward
    rw [hnewer, dif_neg hend]
    refine ⟨rfl, (cursor_older h.settled).trans ?_⟩
    rw [hsettled]
    rfl
  | cons next newer =>
    rcases hs.eq_or with ⟨older, rfl⟩ | ⟨older, line, _, rfl⟩
    · cases hnewer
    · cases hnewer
      have hlt : (cursor ⟨older, some line, next :: newer⟩).place + 1 <
          (cursor ⟨older, some line, next :: newer⟩).lines.length := by simp [entries]
      unfold Cursor.forward
      rw [dif_pos hlt]
      constructor
      · simp [forward, entries]
      · ext1 <;> simp [forward, entries, settled]

/-- **Steps**: a move recalls the line that the cursor is moved to, and moves the cursor so. -/
theorem Sound.apply_refines (hs : h.Sound) (m : Move) :
    (h.apply m).1 = (h.cursor.apply m).1 ∧ (h.apply m).2.cursor = (h.cursor.apply m).2 := by
  cases m with
  | back => exact back_refines h
  | forward => exact hs.forward_refines
  | commit line =>
    refine ⟨rfl, (cursor_older (line :: h.settled)).trans ?_⟩
    rw [List.reverse_cons, ← hs.kept_cursor]
    rfl
  | edit =>
    refine ⟨rfl, (cursor_older h.settled).trans ?_⟩
    rw [← hs.kept_cursor]
    rfl

/-- **Runs**: so do moves in turn. -/
theorem Sound.run_refines (hs : h.Sound) (ms : List Move) :
    (h.run ms).2.Sound ∧ (h.run ms).1 = (h.cursor.run ms).1 ∧
      (h.run ms).2.cursor = (h.cursor.run ms).2 := by
  induction ms generalizing h with
  | nil => exact ⟨hs, rfl, rfl⟩
  | cons m ms ih =>
    obtain ⟨hline, hcursor⟩ := hs.apply_refines m
    obtain ⟨hsound, hlines, hlast⟩ := ih (hs.apply m)
    rw [hcursor] at hlines hlast
    refine ⟨hsound, ?_, hlast⟩
    rw [run, Cursor.run, hline, hlines]

/-! ### Where the cursor can go -/

theorem canGoBack_iff (h : History) : h.canGoBack = true ↔ 0 < h.cursor.place := by
  rw [canGoBack, Bool.not_eq_true', List.isEmpty_eq_false_iff, place_cursor, List.length_pos_iff]

theorem Sound.canGoForward_iff (hs : h.Sound) :
    h.canGoForward = true ↔ h.cursor.place + 1 < h.cursor.lines.length := by
  rcases hs.eq_or with ⟨older, rfl⟩ | ⟨older, line, newer, rfl⟩
  · simp [canGoForward, entries]
  · simp [canGoForward, entries, List.length_pos_iff]

/-! ### There and back -/

/-- A step forward after a step back that recalls a line leads to the same history. -/
theorem Sound.forward_back (hs : h.Sound) {line : String} (hb : h.back.1 = some line) :
    h.back.2.forward.2 = h := by
  obtain ⟨older, recalled, newer⟩ := h
  cases older with
  | nil => cases hb
  | cons next older =>
    cases recalled with
    | none =>
      obtain rfl : newer = [] := hs rfl
      rfl
    | some line => rfl

/-- A step back that recalls nothing changes nothing. -/
theorem back_of_none (hb : h.back.1 = none) : h.back.2 = h := by
  unfold back at hb ⊢
  split at hb
  · rfl
  · cases hb

/-- A step back after a step forward leads to the same history, if a line was recalled. -/
theorem back_forward {line : String} (hr : h.recalled = some line) : h.forward.2.back.2 = h := by
  obtain ⟨older, recalled, newer⟩ := h
  cases hr
  cases newer with
  | nil => rfl
  | cons next newer => rfl

/-! ### The main statement -/

/-- **History.** Whatever is done to a history from the start, the same moves do to a list with a
cursor: they recall the same lines, and lead to the lines of the history with the cursor at the
recalled one. The history can go back if a line comes before the cursor, and forward if one comes
after it. Going back and forth alone keeps every line in its place; a step forward undoes a step
back that recalled a line, and a step back undoes a step forward from a recalled line. -/
theorem refines_cursor (ms : List Move) :
    let h := (empty.run ms).2
    let c := ((Cursor.behind []).run ms).2
    (empty.run ms).1 = ((Cursor.behind []).run ms).1 ∧
      h.entries = c.lines ∧ h.recalled = c.lines[c.place]? ∧
      (h.canGoBack = true ↔ 0 < c.place) ∧
      (h.canGoForward = true ↔ c.place + 1 < c.lines.length) ∧
      (h.back.1 = none → h.back.2 = h) ∧
      (∀ line, h.back.1 = some line → h.back.2.forward.2 = h) ∧
      (∀ line, h.recalled = some line → h.forward.2.back.2 = h) ∧
      ∀ steps : List Move, (∀ m ∈ steps, m = .back ∨ m = .forward) →
        (h.run steps).2.entries = h.entries := by
  intro h c
  obtain ⟨hs, hlines, hcursor⟩ := sound_empty.run_refines ms
  have hc : h.cursor = c := hcursor
  rw [← hc]
  refine ⟨hlines, rfl, hs.recalled_eq, canGoBack_iff h, hs.canGoForward_iff, back_of_none,
    fun line hb => hs.forward_back hb, fun line hr => back_forward hr, fun steps hsteps => ?_⟩
  obtain ⟨-, -, hlast⟩ := hs.run_refines steps
  exact (congrArg Cursor.lines hlast).trans (Cursor.lines_run hsteps)

/-- Three lines, of which the second is recalled; an edit forgets the third. -/
theorem refines_cursor_recalled :
    let h := (empty.run [.commit "a", .commit "b", .commit "c", .back, .back]).2
    h.recalled = some "b" ∧ h.back.2.forward.2 = h ∧ h.forward.2.back.2 = h ∧
      (h.run [.back, .back, .forward, .forward, .forward]).2.entries = ["a", "b", "c"] ∧
      h.edit.entries = ["a", "b"] := by
  intro h
  obtain ⟨-, -, -, -, -, -, hback, hforward, hsteps⟩ :=
    refines_cursor [.commit "a", .commit "b", .commit "c", .back, .back]
  exact ⟨rfl, hback "a" rfl, hforward "b" rfl, hsteps _ (by decide), rfl⟩

end CommandConsole.History

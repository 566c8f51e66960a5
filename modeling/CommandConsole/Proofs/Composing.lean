import CommandConsole.Prompt
import CommandConsole.Proofs.Recall

/-!
# CommandConsole.Proofs.Composing — the composed line and the recalled one

The prompt keeps the composed line beside the history, and each key changes them one by one. All the
same they belong together: while a line of the history is recalled, it is the composed line. As no
line of the history is blank, the keys that would change one of the two alone find nothing recalled.

* `Prompt.Key`, `Prompt.run`: what can be done at a prompt.
* `Prompt.Sound`: what every key keeps; `Prompt.Sound.apply`, key by key.
* `Prompt.line_of_recalled`: all of it for prompts that have been used from the start.
-/

namespace CommandConsole

namespace History

variable {h : History} {line : String}

theorem mem_entries_of_settled (hm : line ∈ h.settled) : line ∈ h.entries := by
  obtain ⟨older, recalled, newer⟩ := h
  cases recalled with
  | none => exact List.mem_append_left _ (by simpa [settled] using hm)
  | some recalled => exact List.mem_append_left _ (by simpa [settled, or_comm] using hm)

theorem entries_edit (h : History) : h.edit.entries = h.settled.reverse := by
  simp [edit, entries]

theorem entries_commit (h : History) (line : String) :
    (h.commit line).entries = h.settled.reverse ++ [line] := by
  simp [commit, entries]

theorem entries_back (h : History) : h.back.2.entries = h.entries :=
  (congrArg Cursor.lines (back_refines h).2).trans (Cursor.lines_back _)

theorem Sound.entries_forward (hs : h.Sound) : h.forward.2.entries = h.entries :=
  (congrArg Cursor.lines hs.forward_refines.2).trans (Cursor.lines_forward _)

/-- With nothing recalled, every line is kept. -/
theorem Sound.kept_of_not_recalled (hs : h.Sound) (hr : h.recalled = none) :
    h.cursor.kept = h.entries := by
  rw [hs.kept_cursor]
  simp [entries, settled, hr, hs hr]

theorem recalled_back (hb : h.back.1 = some line) : h.back.2.recalled = some line := by
  unfold back at hb ⊢
  split at hb
  · cases hb
  · exact hb

theorem recalled_forward (h : History) : h.forward.2.recalled = h.forward.1 := by
  unfold forward
  split <;> rfl

end History

namespace Prompt

/-! ### Keys -/

/-- What can be done at a prompt. -/
inductive Key where
  | insert (c : Char)
  | backspace
  | back
  | forward
  | submit
deriving DecidableEq, Repr

/-- The prompt after a key. -/
def apply (p : Prompt) : Key → Prompt
  | .insert c => (p.insert c).2
  | .backspace => p.backspace
  | .back => p.back
  | .forward => p.forward
  | .submit => p.submit.2

/-- The prompt after keys in turn. -/
def run (p : Prompt) (keys : List Key) : Prompt := keys.foldl apply p

variable {p : Prompt} {c : Char} {line : String}

theorem insert_of_allowed (p : Prompt) (hc : c ∈ allowedCharacters) :
    p.insert c = (true, { line := p.line.push c, history := p.history.edit }) :=
  if_pos (List.contains_iff_mem.mpr hc)

theorem insert_of_not_allowed (p : Prompt) (hc : c ∉ allowedCharacters) :
    p.insert c = (false, p) :=
  if_neg (mt List.contains_iff_mem.mp hc)

theorem back_eq (p : Prompt) : p.back = ⟨p.history.back.1.getD p.line, p.history.back.2⟩ := by
  unfold back
  split <;> simp [*]

theorem submit_of_blank (hb : Text.isBlankText p.line = true) :
    p.submit = (p.line, { p with line := "" }) :=
  if_pos hb

theorem submit_of_not_blank (hb : ¬ Text.isBlankText p.line = true) :
    p.submit = (p.line, { line := "", history := p.history.commit p.line }) :=
  if_neg hb

theorem toList_line_backspace (p : Prompt) :
    p.backspace.line.toList = p.line.toList.dropLast := by
  unfold backspace
  split
  · next he => simp [String.isEmpty_iff.mp he]
  · exact String.toList_ofList

theorem submit_fst (p : Prompt) : p.submit.1 = p.line := by
  unfold submit
  split <;> rfl

theorem line_submit (p : Prompt) : p.submit.2.line = "" := by
  unfold submit
  split <;> rfl

/-! ### What keys keep -/

/-- Every character of the line can be typed. -/
def Typed (line : String) : Prop := ∀ c ∈ line.toList, c ∈ allowedCharacters

/-- A prompt as keys leave it. -/
structure Sound (p : Prompt) : Prop where
  typed : Typed p.line
  entered : ∀ line ∈ p.history.entries, Typed line ∧ ¬ Text.isBlankText line = true
  /-- The recalled line is the composed one. -/
  recalled : ∀ line, p.history.recalled = some line → p.line = line
  history : p.history.Sound

theorem typed_empty : Typed "" := by simp [Typed]

theorem sound_empty : Sound empty where
  typed := typed_empty
  entered := nofun
  recalled := nofun
  history := History.sound_empty

namespace Sound

/-- The recalled line is not blank. -/
theorem not_recalled_of_blank (h : p.Sound) (hb : Text.isBlankText p.line = true) :
    p.history.recalled = none := by
  refine Option.eq_none_iff_forall_not_mem.mpr fun line hr => ?_
  have hmem : line ∈ p.history.entries := by
    have hr : p.history.recalled = some line := hr
    simp [History.entries, hr]
  exact (h.entered line hmem).2 (h.recalled line hr ▸ hb)

theorem not_recalled_of_empty (h : p.Sound) (he : p.line = "") : p.history.recalled = none :=
  h.not_recalled_of_blank (by rw [he]; rfl)

/-- Changing the composed line lets go of the recalled one. -/
theorem edit (h : p.Sound) (hline : Typed line) :
    Sound { line, history := p.history.edit } where
  typed := hline
  entered entry hentry := by
    rw [History.entries_edit, List.mem_reverse] at hentry
    exact h.entered entry (History.mem_entries_of_settled hentry)
  recalled := nofun
  history := h.history.apply .edit

theorem insert (h : p.Sound) (c : Char) : (p.insert c).2.Sound := by
  by_cases hc : c ∈ allowedCharacters
  · rw [insert_of_allowed p hc]
    refine h.edit fun d hd => ?_
    rw [String.toList_push, List.mem_append, List.mem_singleton] at hd
    rcases hd with hd | rfl
    · exact h.typed d hd
    · exact hc
  · rw [insert_of_not_allowed p hc]
    exact h

theorem backspace (h : p.Sound) : p.backspace.Sound := by
  unfold Prompt.backspace
  split
  · exact h
  · refine h.edit fun d hd => ?_
    rw [String.toList_ofList] at hd
    exact h.typed d (List.dropLast_subset _ hd)

theorem back (h : p.Sound) : p.back.Sound := by
  rw [back_eq]
  cases hb : p.history.back.1 with
  | none =>
    rw [History.back_of_none hb]
    exact h
  | some line =>
    have hmem : line ∈ p.history.entries := by
      rw [← History.entries_back]
      simp [History.entries, History.recalled_back hb]
    exact {
      typed := (h.entered line hmem).1
      entered := fun entry hentry => h.entered entry (History.entries_back _ ▸ hentry)
      recalled := fun other ho => Option.some.inj ((History.recalled_back hb).symm.trans ho)
      history := h.history.apply .back }

theorem forward (h : p.Sound) : p.forward.Sound := by
  have hentered : ∀ line ∈ p.history.forward.2.entries, Typed line ∧
      ¬ Text.isBlankText line = true := fun line hline =>
    h.entered line (h.history.entries_forward ▸ hline)
  have hrecalled := History.recalled_forward p.history
  refine ⟨?_, hentered, fun line hr => ?_, h.history.apply .forward⟩
  · show Typed (p.history.forward.1.getD "")
    cases hf : p.history.forward.1 with
    | none => exact typed_empty
    | some line =>
      refine (hentered line ?_).1
      simp [History.entries, hrecalled.trans hf]
  · show p.history.forward.1.getD "" = line
    rw [← hrecalled, show p.history.forward.2.recalled = some line from hr]
    rfl

theorem submit (h : p.Sound) : p.submit.2.Sound := by
  by_cases hb : Text.isBlankText p.line = true
  · rw [submit_of_blank hb]
    refine ⟨typed_empty, h.entered, fun line hr => ?_, h.history⟩
    -- nothing is recalled, so that the line can be emptied alone
    cases (h.not_recalled_of_blank hb).symm.trans hr
  · rw [submit_of_not_blank hb]
    refine ⟨typed_empty, fun entry hentry => ?_, nofun, h.history.apply (.commit p.line)⟩
    rw [History.entries_commit, List.mem_append, List.mem_reverse, List.mem_singleton] at hentry
    rcases hentry with hentry | rfl
    · exact h.entered entry (History.mem_entries_of_settled hentry)
    · exact ⟨h.typed, hb⟩

/-- **Steps**: every key keeps a prompt sound. -/
theorem apply (h : p.Sound) (key : Key) : (p.apply key).Sound := by
  cases key with
  | insert c => exact h.insert c
  | backspace => exact h.backspace
  | back => exact h.back
  | forward => exact h.forward
  | submit => exact h.submit

/-- **Runs**: so do keys in turn. -/
theorem run (h : p.Sound) (keys : List Key) : (p.run keys).Sound := by
  induction keys generalizing p with
  | nil => exact h
  | cons key keys ih => exact ih (h.apply key)

/-- Whatever a backspace does, nothing is recalled behind it. -/
theorem recalled_backspace (h : p.Sound) : p.backspace.history.recalled = none := by
  unfold Prompt.backspace
  split
  · next he => exact h.not_recalled_of_empty (String.isEmpty_iff.mp he)
  · rfl

end Sound

/-! ### The main statement -/

/-- **The prompt.** Whatever keys have been used on a new prompt, every character of the composed
line and of the lines in the history can be typed, no line in the history is blank, and a recalled
line is the composed one. So with an empty or a blank line composed nothing is recalled, and after an
edit nothing is recalled either. A character that cannot be typed changes nothing. Submitting gives
the composed line back and empties it; a blank line changes nothing in the history, and any other
line is put as the newest behind those up to the recalled one, which are all if none is recalled. -/
theorem line_of_recalled (keys : List Key) :
    let p := empty.run keys
    (∀ c ∈ p.line.toList, c ∈ allowedCharacters) ∧
      (∀ entry ∈ p.history.entries, (∀ c ∈ entry.toList, c ∈ allowedCharacters) ∧
        ¬ Text.isBlankText entry = true) ∧
      (∀ line, p.history.recalled = some line → p.line = line) ∧
      (p.line = "" → p.history.recalled = none) ∧
      (Text.isBlankText p.line = true → p.history.recalled = none) ∧
      (∀ c ∈ allowedCharacters, (p.insert c).1 = true ∧ (p.insert c).2.line = p.line.push c ∧
        (p.insert c).2.history.recalled = none) ∧
      (∀ c, c ∉ allowedCharacters → p.insert c = (false, p)) ∧
      p.backspace.line.toList = p.line.toList.dropLast ∧
      p.backspace.history.recalled = none ∧
      p.submit.1 = p.line ∧ p.submit.2.line = "" ∧ p.submit.2.history.recalled = none ∧
      (Text.isBlankText p.line = true → p.submit.2.history = p.history) ∧
      (¬ Text.isBlankText p.line = true →
        p.submit.2.history.entries = p.history.cursor.kept ++ [p.line]) ∧
      (p.history.recalled = none → p.history.cursor.kept = p.history.entries) := by
  intro p
  have h : p.Sound := sound_empty.run keys
  have hsubmit : p.submit.2.history.recalled = none := by
    by_cases hb : Text.isBlankText p.line = true
    · rw [submit_of_blank hb]
      exact h.not_recalled_of_blank hb
    · rw [submit_of_not_blank hb]
      rfl
  refine ⟨h.typed, h.entered, h.recalled, h.not_recalled_of_empty, h.not_recalled_of_blank,
    fun c hc => ?_, fun c hc => insert_of_not_allowed p hc, toList_line_backspace p,
    h.recalled_backspace, submit_fst p, line_submit p, hsubmit, fun hb => ?_, fun hb => ?_,
    h.history.kept_of_not_recalled⟩
  · rw [insert_of_allowed p hc]
    exact ⟨rfl, rfl, rfl⟩
  · rw [submit_of_blank hb]
  · rw [submit_of_not_blank hb, History.entries_commit, ← h.history.kept_cursor]

/-- Of three lines the second is recalled: it is the composed line, an edit lets go of it, and
submitting it forgets the third. A blank line that is submitted is not remembered. -/
theorem line_of_recalled_second :
    let keys : List Key := [.insert 'a', .submit, .insert 'b', .submit, .insert 'c', .submit,
      .back, .back]
    let blank : List Key := [.insert ' ']
    ∃ p q, p = empty.run keys ∧ q = empty.run blank ∧
      p.history.recalled = some "b" ∧ p.line = "b" ∧
      '!' ∈ allowedCharacters ∧ (p.insert '!').2.history.recalled = none ∧
      '`' ∉ allowedCharacters ∧ p.insert '`' = (false, p) ∧
      ¬ Text.isBlankText p.line = true ∧ p.submit.2.history.entries = ["a", "b", "b"] ∧
      Text.isBlankText q.line = true ∧ q.submit.2.history = q.history := by
  intro keys blank
  obtain ⟨p, hp⟩ : ∃ p, p = empty.run keys := ⟨_, rfl⟩
  obtain ⟨q, hq⟩ : ∃ q, q = empty.run blank := ⟨_, rfl⟩
  have main := line_of_recalled keys
  have other := line_of_recalled blank
  rw [← hp] at main
  rw [← hq] at other
  obtain ⟨-, -, hline, -, -, hinsert, hfiltered, -, -, -, -, -, -, hsubmit, -⟩ := main
  obtain ⟨-, -, -, -, -, -, -, -, -, -, -, -, hunchanged, -, -⟩ := other
  have hrecalled : p.history.recalled = some "b" := by rw [hp]; decide +kernel
  have hkept : p.history.cursor.kept = ["a", "b"] := by rw [hp]; decide +kernel
  have hblank : Text.isBlankText q.line = true := by rw [hq]; decide +kernel
  have hb : p.line = "b" := hline "b" hrecalled
  have hsolid : ¬ Text.isBlankText p.line = true := by
    rw [hb]
    decide +kernel
  have hentries : p.submit.2.history.entries = ["a", "b", "b"] := by
    rw [hsubmit hsolid, hkept, hb]
    rfl
  obtain ⟨-, -, hdetached⟩ := hinsert '!' (by decide)
  exact ⟨p, q, hp, hq, hrecalled, hb, by decide, hdetached, by decide,
    hfiltered '`' (by decide), hsolid, hentries, hblank, hunchanged hblank⟩

end Prompt

end CommandConsole

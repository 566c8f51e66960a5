import CommandConsole.Proofs.Backtracking
import CommandConsole.Proofs.Filling

/-!
# CommandConsole.Proofs.Matching — patterns that match what templates read

A greedy repetition and the run of a step both prefer to go on. So a pattern that is put together
from characters, greedy repetitions of one character and groups matches just the lines that the
template with the same steps reads, and what its groups capture are the texts between the cuts.

* `ReadsAs`: a pattern matches what steps read, whatever has to follow.
* `Captures`: the groups capture every other text.
* `reads_group`: a group around a pattern is two cuts around the steps.
-/

namespace CommandConsole.Pattern

open Template LineRule

variable {a : Pattern} {set : CharSet} {mark last i : Nat} {steps steps' t : Template}
  {follow : Cursor → Option Cursor} {Q : Cursor → List (List Char) → Cursor → Prop}

/-- From every cursor, what follows is found if and only if the template reads the rest of the line;
then the place it is found at and the texts belong together. -/
def Reads (follow : Cursor → Option Cursor) (t : Template)
    (Q : Cursor → List (List Char) → Cursor → Prop) : Prop :=
  ∀ s, Option.Rel (Q s) (split? t s.rest) (follow s)

/-- A character that is read is put in front of the first text. -/
def Grows (Q : Cursor → List (List Char) → Cursor → Prop) : Prop :=
  ∀ {s : Cursor} {c : Char} {rest : List Char} {texts : List (List Char)} {u : Cursor},
    s.rest = c :: rest → Q (s.advance c rest) texts u → Q s (push c texts) u

/-- The pattern matches what the steps read, whatever has to follow. -/
def ReadsAs (a : Pattern) (steps : Template) : Prop :=
  ∀ {follow : Cursor → Option Cursor} {t : Template}
    {Q : Cursor → List (List Char) → Cursor → Prop}, Grows Q → Reads follow t Q →
    Reads (a.attempt follow) (steps ++ t) Q

theorem rel_map {x : Option (List (List Char))} {y : Option Cursor}
    {R R' : List (List Char) → Cursor → Prop} {f : List (List Char) → List (List Char)}
    (h : Option.Rel R x y) (hf : ∀ texts u, x = some texts → R texts u → R' (f texts) u) :
    Option.Rel R' (x.map f) y := by
  cases h with
  | none => exact .none
  | some hr => exact .some (hf _ _ rfl hr)

theorem rel_or {x x' : Option (List (List Char))} {y y' : Option Cursor}
    {R : List (List Char) → Cursor → Prop} (h : Option.Rel R x y) (h' : Option.Rel R x' y') :
    Option.Rel R (x.or x') (y.or y') := by
  cases h with
  | none => exact h'
  | some hr => exact .some hr

/-! ### Characters and runs -/

theorem readsAs_one (set : CharSet) : ReadsAs (.one set) [.one set] := by
  intro follow t Q hQ h s
  unfold attempt
  cases hr : s.rest with
  | nil =>
    rw [List.singleton_append, split?]
    exact .none
  | cons c rest =>
    rw [List.singleton_append, split?]
    dsimp only
    split
    · exact rel_map (h (s.advance c rest)) fun _ _ _ hu => hQ hr hu
    · exact .none

theorem readsAs_many (set : CharSet) (mark : Nat) :
    ReadsAs (.many true mark (.one set)) [.many set] := by
  intro follow t Q hQ h s
  show Option.Rel (Q s) (split? (.many set :: t) s.rest)
    (attemptRounds true (one set).attempt follow s.rest.length s)
  induction hr : s.rest generalizing s with
  | nil =>
    rw [split?, List.length_nil, attemptRounds]
    exact hr ▸ h s
  | cons c rest ih =>
    rw [split?, List.length_cons, attemptRounds, if_pos rfl]
    refine rel_or ?_ (hr ▸ h s)
    unfold attempt
    rw [hr]
    dsimp only
    split
    · have hlt : s.position < (s.advance c rest).position := Nat.lt_succ_self s.position
      rw [if_pos hlt]
      exact rel_map (ih (s.advance c rest) rfl) fun _ _ _ hu => hQ hr hu
    · exact .none

theorem readsAs_atLeastOne (set : CharSet) (mark : Nat) :
    ReadsAs (.atLeastOne true mark (.one set)) (oneOrMore set) :=
  fun hQ h => readsAs_one set hQ (readsAs_many set mark hQ h)

theorem readsAs_empty : ReadsAs .empty [] := fun _ h => h

theorem ReadsAs.seq {a b : Pattern} (ha : a.ReadsAs steps) (hb : b.ReadsAs steps') :
    (Pattern.seq a b).ReadsAs (steps ++ steps') := by
  intro follow t Q hQ h
  rw [List.append_assoc]
  exact ha hQ (hb hQ h)

/-! ### Groups -/

/-- What has been captured between two cursors are the values among the texts, in groups with the
numbers behind `i` and up to the last one. -/
def Captures (last i : Nat) (s : Cursor) (texts : List (List Char)) (u : Cursor) : Prop :=
  ∃ new : List Capture, u.captures = new.reverse ++ s.captures ∧
    new.map Capture.text = everyOther texts ∧
    new.map Capture.index = List.range' (i + 1) new.length ∧ i + new.length = last

theorem grows_captures (last i : Nat) : Grows (Captures last i) := by
  rintro s c rest texts u - ⟨new, hnew, hvalues, hindices⟩
  exact ⟨new, hnew, hvalues.trans (everyOther_push c texts).symm, hindices⟩

/-- The same within a group that has started at the first cursor: the first text belongs to it. -/
def CapturesInside (last i : Nat) (start s : Cursor) (texts : List (List Char)) (u : Cursor) :
    Prop :=
  start.position ≤ s.position → ∃ value later new, texts = value :: later ∧
    u.captures = List.reverse new ++
      ⟨i + 1, start.rest, s.position - start.position + value.length⟩ :: s.captures ∧
    new.map Capture.text = everyOther later ∧
    new.map Capture.index = List.range' (i + 2) new.length ∧ i + 1 + new.length = last

theorem grows_capturesInside (last i : Nat) (start : Cursor) :
    Grows (CapturesInside last i start) := by
  intro s c rest texts u _ h hle
  obtain ⟨value, later, new, rfl, hnew, hvalues, hindices⟩ := h (Nat.le_succ_of_le hle)
  refine ⟨c :: value, later, new, rfl, ?_, hvalues, hindices⟩
  have hlength : (s.advance c rest).position - start.position + value.length =
      s.position - start.position + (c :: value).length := by
    show s.position + 1 - start.position + value.length = _
    rw [List.length_cons]
    omega
  rw [← hlength]
  exact hnew

/-- **Groups**: a group captures the text between two cuts. -/
theorem reads_group (ha : a.ReadsAs steps) (h : Reads follow t (Captures last (i + 1))) :
    Reads ((group (i + 1) a).attempt follow) (.cut :: steps ++ [.cut] ++ t) (Captures last i) := by
  intro s
  have behind : Reads (fun v => follow (v.capture (i + 1) s)) (.cut :: t)
      (CapturesInside last i s) := by
    intro v
    rw [split?]
    refine rel_map (h (v.capture (i + 1) s)) ?_
    rintro texts u - ⟨new, hnew, hvalues, hindices⟩ -
    exact ⟨[], texts, new, rfl, hnew, hvalues, hindices⟩
  rw [List.append_assoc, List.cons_append, List.singleton_append, split?]
  refine rel_map (ha (grows_capturesInside last i s) behind s) ?_
  intro texts u htexts hu
  obtain ⟨value, later, new, rfl, hnew, hvalues, hindices, hlast⟩ := hu (Nat.le_refl _)
  rw [Nat.sub_self, Nat.zero_add] at hnew
  refine ⟨⟨i + 1, s.rest, value.length⟩ :: new, by simpa using hnew, ?_, ?_, ?_⟩
  · have htake : s.rest.take value.length = value := by
      rw [← flatten_of_split? htexts, List.flatten_cons, List.take_left]
    rw [List.map_cons, hvalues, Capture.text, htake]
    rfl
  · rw [List.map_cons, hindices, List.length_cons, List.range'_succ]
  · rw [List.length_cons]
    omega

/-! ### Whole lines -/

/-- At the end of a line nothing is left to read. -/
theorem reads_textEnd : Reads ((anchor .textEnd).attempt some) [] (Captures last last) := by
  intro s
  unfold attempt Anchor.holds
  cases hr : s.rest with
  | nil =>
    rw [split?]
    exact .some ⟨[], rfl, rfl, rfl, rfl⟩
  | cons c rest =>
    rw [split?]
    exact .none

/-- The text of a group is what it has captured. -/
theorem map_captured {u : Cursor} {new : List Capture} (hu : u.captures = new.reverse)
    (hindices : new.map Capture.index = List.range' 1 new.length) :
    (List.range new.length).map (fun i => u.captured (i + 1)) = new.map Capture.text := by
  have index {j : Nat} (hj : j < new.length) : new[j].index = j + 1 := by
    have hmap : (new.map Capture.index)[j]? = some (j + 1) := by
      rw [hindices, List.getElem?_range' hj, Nat.one_mul, Nat.add_comm]
    rw [List.getElem?_map, List.getElem?_eq_getElem hj] at hmap
    exact Option.some.inj hmap
  refine List.ext_getElem (by simp) fun j hj _ => ?_
  have hj : j < new.length := by simpa using hj
  rw [List.getElem_map, List.getElem_range, List.getElem_map, Cursor.captured, hu]
  cases hfind : new.reverse.find? (·.index == j + 1) with
  | none =>
    have hmiss := List.find?_eq_none.mp hfind new[j] (by simp)
    rw [index hj] at hmiss
    simp at hmiss
  | some c =>
    have hmem := List.mem_reverse.mp (List.mem_of_find?_eq_some hfind)
    obtain ⟨k, hk, rfl⟩ := List.getElem_of_mem hmem
    have heq := List.find?_some hfind
    rw [index hk, beq_iff_eq] at heq
    obtain rfl := Nat.succ.inj heq
    rfl

/-- **Lines**: a pattern for a whole line captures every other text of the template. -/
theorem captures?_of_reads {l h : Nat} (ho : Ordered a l h) (ha : a.arity = last)
    (hreads : Reads (a.attempt some) steps (Captures last 0)) (line : String) :
    (Pattern.seq (.anchor .textStart) a).captures? line =
      (split? steps line.toList).map everyOther := by
  have whole : Ordered (.seq (.anchor .textStart) a) l h := .seq .anchor ho
  have harity : (Pattern.seq (.anchor .textStart) a).arity = last := (Nat.zero_max _).trans ha
  unfold captures?
  rw [whole.find?_eq rfl, harity]
  show (a.attempt some { rest := line.toList }).map _ = _
  have hrel := hreads { rest := line.toList }
  dsimp only at hrel
  generalize split? steps line.toList = x at hrel
  generalize a.attempt some { rest := line.toList } = y at hrel
  cases hrel with
  | none => rfl
  | some hcaptures =>
    obtain ⟨new, hnew, hvalues, hindices, rfl⟩ := hcaptures
    rw [Nat.zero_add, Option.map_some, Option.map_some]
    rw [map_captured (hnew.trans (List.append_nil _)) hindices, hvalues]

end CommandConsole.Pattern

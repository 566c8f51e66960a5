import CommandConsole.CharSet

/-!
# CommandConsole.Template — lines made of fixed and free parts

A template is a list of steps. It describes whole lines: each step reads one character of a set or a
run of them, and cuts divide a line into texts. A run is as long as it can be, earlier ones first.

* `split?`: the texts into which a template divides a line, by trying longer runs first.
* `splitLine?_eq_split?`: the same by a table of answers, which takes time in proportion to the
  lengths of the template and the line only.
* `flatten_of_split?`: the texts make up the line.
-/

namespace CommandConsole

/-- A step of a template. -/
inductive Template.Step where
  /-- Reads one character. -/
  | one (set : CharSet)
  /-- Reads any number of characters. -/
  | many (set : CharSet)
  /-- Ends a text and starts the next one. -/
  | cut
deriving DecidableEq, Repr

/-- A description of lines. -/
abbrev Template := List Template.Step

namespace Template

/-- Puts a character in front of the first text. -/
def push (c : Char) : List (List Char) → List (List Char)
  | [] => [[c]]
  | text :: texts => (c :: text) :: texts

/-- Divides a line at the cuts of a template. Where a run can go on or end, going on is preferred,
if the rest of the line can then be read. -/
def split? : Template → List Char → Option (List (List Char))
  | [], [] => some [[]]
  | [], _ :: _ => none
  | .cut :: steps, cs => (split? steps cs).map ([] :: ·)
  | .one _ :: _, [] => none
  | .one set :: steps, c :: cs =>
    if set.contains c then (split? steps cs).map (push c) else none
  | .many _ :: steps, [] => split? steps []
  | .many set :: steps, c :: cs =>
    (if set.contains c then (split? (.many set :: steps) cs).map (push c) else none).or
      (split? steps (c :: cs))
termination_by steps cs => steps.length + cs.length

theorem push_flatten {c : Char} {texts : List (List Char)} :
    (push c texts).flatten = c :: texts.flatten := by
  cases texts <;> simp [push]

/-- The texts make up the line. -/
theorem flatten_of_split? {t : Template} {cs : List Char} {texts : List (List Char)}
    (h : split? t cs = some texts) : texts.flatten = cs := by
  fun_induction split? t cs generalizing texts with
  | case1 => simp only [Option.some.injEq] at h; subst h; rfl
  | case2 => simp at h
  | case3 steps cs ih =>
    obtain ⟨rest, hrest, rfl⟩ := Option.map_eq_some_iff.1 h
    simpa using ih hrest
  | case4 => simp at h
  | case5 set steps c cs hc ih =>
    obtain ⟨rest, hrest, rfl⟩ := Option.map_eq_some_iff.1 h
    rw [push_flatten, ih hrest]
  | case6 => simp at h
  | case7 set steps ih => exact ih h
  | case8 set steps c cs ih1 ih2 =>
    rcases Option.or_eq_some_iff.1 h with h | ⟨_, h⟩
    · split at h
      · obtain ⟨rest, hrest, rfl⟩ := Option.map_eq_some_iff.1 h
        rw [push_flatten, ih1 hrest]
      · simp at h
    · exact ih2 h

/-! ### The table of answers -/

/-- The first of several answers. -/
def firstAnswer : List (Option (List (List Char))) → Option (List (List Char))
  | [] => none
  | answer :: _ => answer

/-- What `split?` answers on a text for a template and for what follows each of its steps. -/
def answers (cs : List Char) : Template → List (Option (List (List Char)))
  | [] => [split? [] cs]
  | step :: steps => split? (step :: steps) cs :: answers cs steps

@[simp] theorem firstAnswer_cons {answer : Option (List (List Char))}
    {rest : List (Option (List (List Char)))} : firstAnswer (answer :: rest) = answer := rfl

@[simp] theorem firstAnswer_answers (cs : List Char) (t : Template) :
    firstAnswer (answers cs t) = split? t cs := by
  cases t <;> rfl

/-- The answers on the empty text. -/
def lastAnswers : Template → List (Option (List (List Char)))
  | [] => [some [[]]]
  | step :: steps =>
    let after := lastAnswers steps
    let rest := firstAnswer after
    (match step with
      | .cut => rest.map ([] :: ·)
      | .one _ => none
      | .many _ => rest) :: after

/-- The answers on a text that a character is put in front of. -/
def pushAnswers (c : Char) : Template → List (Option (List (List Char))) →
    List (Option (List (List Char)))
  | [], _ => [none]
  | step :: steps, before =>
    let after := pushAnswers c steps before.tail
    let rest := firstAnswer after
    (match step with
      | .cut => rest.map ([] :: ·)
      | .one set => if set.contains c then (firstAnswer before.tail).map (push c) else none
      | .many set =>
        (if set.contains c then (firstAnswer before).map (push c) else none).or rest) :: after

theorem lastAnswers_eq (t : Template) : lastAnswers t = answers [] t := by
  induction t with
  | nil => simp [lastAnswers, answers, split?]
  | cons step steps ih =>
    cases step <;> simp [lastAnswers, answers, split?, ih]

theorem pushAnswers_eq (c : Char) (cs : List Char) (t : Template) :
    pushAnswers c t (answers cs t) = answers (c :: cs) t := by
  induction t with
  | nil => simp [pushAnswers, answers, split?]
  | cons step steps ih =>
    cases step <;> simp [pushAnswers, answers, split?, ih]

/-- Divides a line at the cuts of a template. Up to the first run there is only one way to go;
from there on the answers for all ends of the line are listed, from its end to its start. -/
def splitLine? : Template → List Char → Option (List (List Char))
  | .cut :: steps, cs => (splitLine? steps cs).map ([] :: ·)
  | .one _ :: _, [] => none
  | .one set :: steps, c :: cs =>
    if set.contains c then (splitLine? steps cs).map (push c) else none
  | t, cs => firstAnswer (cs.foldr (fun c => pushAnswers c t) (lastAnswers t))

theorem foldr_pushAnswers (t : Template) (cs : List Char) :
    cs.foldr (fun c => pushAnswers c t) (lastAnswers t) = answers cs t := by
  induction cs with
  | nil => exact lastAnswers_eq t
  | cons c cs ih => rw [List.foldr_cons, ih, pushAnswers_eq]

/-- The table gives what trying gives. -/
theorem splitLine?_eq_split? (t : Template) (cs : List Char) : splitLine? t cs = split? t cs := by
  fun_induction splitLine? t cs with
  | case1 steps cs ih => rw [split?, ih]
  | case2 => rw [split?]
  | case3 set steps c cs hc ih => rw [split?, if_pos hc, ih]
  | case4 set steps c cs hc => rw [split?, if_neg hc]
  | case5 t cs => rw [foldr_pushAnswers, firstAnswer_answers]

/-- Whether a template describes a line. -/
def accepts (t : Template) (line : String) : Bool := (splitLine? t line.toList).isSome

/-- The steps that read exactly these characters. -/
def exactly (cs : List Char) : Template := cs.map fun c => .one (.only c)

/-- One character of a set or more. -/
def oneOrMore (set : CharSet) : Template := [.one set, .many set]

end Template

end CommandConsole

import CommandConsole.Proofs.Pasting
import CommandConsole.Signature

/-!
# CommandConsole.Proofs.Anchoring — a hand-written pattern matches whole lines

The pattern of a hand-written signature is pasted between the ends of a line before it is read. If
it leaves the group open that is put around it, it can be read alone, and the lines of the signature
are lines that it matches from the first character to the last. A pattern that closes this group
itself is taken as well, but then what stands before its parenthesis need not end with the line, nor
what stands behind it start with the line.

* `ReaderState.InOrder`, `Expr.read_inOrder`: no count of a pattern that is read asks for more
  rounds than it allows.
* `Signature.custom_anchored`: the lines of a hand-written signature.
-/

namespace CommandConsole

namespace Pattern

/-! ### Counts of patterns that are read -/

namespace Expr

theorem sequence_inOrder {es : List Expr} (h : ∀ e ∈ es, e.InOrder) : (sequence es).InOrder := by
  fun_induction sequence es with
  | case1 => trivial
  | case2 e => exact h e (List.mem_singleton_self e)
  | case3 e es _ ih =>
    obtain ⟨he, hes⟩ := List.forall_mem_cons.mp h
    exact ⟨he, ih hes⟩

theorem anyOf_inOrder {es : List Expr} (h : ∀ e ∈ es, e.InOrder) : (anyOf es).InOrder := by
  fun_induction anyOf es with
  | case1 => trivial
  | case2 e => exact h e (List.mem_singleton_self e)
  | case3 e es _ ih =>
    obtain ⟨he, hes⟩ := List.forall_mem_cons.mp h
    exact ⟨he, ih hes⟩

end Expr

/-- The counts are in order in all that has been read of a group. -/
structure Branches.InOrder (b : Branches) : Prop where
  items : ∀ i ∈ b.items, i.expr.InOrder
  earlier : ∀ i ∈ b.earlier, i.expr.InOrder

namespace Branches.InOrder

variable {b : Branches}

theorem add (h : b.InOrder) {i : Item} (hi : i.expr.InOrder) : (b.add i).InOrder where
  items := List.forall_mem_cons.mpr ⟨hi, h.items⟩
  earlier := h.earlier

theorem last (h : b.InOrder) : b.last.expr.InOrder := by
  refine Expr.sequence_inOrder fun e he => ?_
  obtain ⟨i, hi, rfl⟩ := List.mem_map.mp he
  exact h.items i (List.mem_reverse.mp hi)

theorem item (h : b.InOrder) : b.item.expr.InOrder := by
  refine Expr.anyOf_inOrder fun e he => ?_
  obtain ⟨i, hi, rfl⟩ := List.mem_map.mp he
  rcases List.mem_cons.mp (List.mem_reverse.mp hi) with rfl | hi
  · exact h.last
  · exact h.earlier i hi

end Branches.InOrder

/-- The counts are in order in all that has been read. -/
structure ReaderState.InOrder (r : ReaderState) : Prop where
  branches : r.branches.InOrder
  groups : ∀ g ∈ r.groups, g.around.InOrder

namespace ReaderState

variable {r r' : ReaderState} {t : Token} {ts : List Token}

theorem InOrder.add (h : r.InOrder) {i : Item} (hi : i.expr.InOrder) : (r.add i).InOrder :=
  ⟨h.branches.add hi, h.groups⟩

theorem InOrder.rounds (h : r.InOrder) {least : Nat} {most : Option Nat} {greedy : Bool}
    (horder : ∀ m, most = some m → least ≤ m) (hr : r.rounds least most greedy = .ok r') :
    r'.InOrder := by
  obtain ⟨i, items, hitems, rfl⟩ := rounds_ok hr
  have hall := h.branches.items
  rw [hitems] at hall
  obtain ⟨hi, hlater⟩ := List.forall_mem_cons.mp hall
  exact ⟨⟨List.forall_mem_cons.mpr ⟨⟨horder, hi⟩, hlater⟩, h.branches.earlier⟩, h.groups⟩

/-- A token keeps the counts in order if its own is. -/
theorem InOrder.step (h : r.InOrder) (ht : t.InOrder) (hstep : r.step t = .ok r') : r'.InOrder := by
  cases t with
  | atom | dot | bracket =>
    obtain ⟨e, depth, he, rfl⟩ := leaf_ok hstep trivial
    refine h.add ?_
    obtain ⟨s, rfl⟩ | ⟨p, rfl⟩ := he <;> trivial
  | start g =>
    obtain ⟨flags, index, captures, names, rfl⟩ := openGroup_ok hstep
    exact ⟨⟨List.forall_mem_nil _, List.forall_mem_nil _⟩,
      List.forall_mem_cons.mpr ⟨h.branches, h.groups⟩⟩
  | close =>
    obtain ⟨around, index, groups, hgroups, rfl⟩ := closeGroup_ok hstep
    have hall := h.groups
    rw [hgroups] at hall
    obtain ⟨haround, hlater⟩ := List.forall_mem_cons.mp hall
    refine ⟨haround.add ?_, hlater⟩
    cases index <;> exact h.branches.item
  | bar =>
    cases hstep
    exact ⟨⟨List.forall_mem_nil _, List.forall_mem_cons.mpr ⟨h.branches.last, h.branches.earlier⟩⟩,
      h.groups⟩
  | flags change =>
    cases hstep
    exact ⟨⟨List.forall_mem_cons.mpr ⟨trivial, h.branches.items⟩, h.branches.earlier⟩, h.groups⟩
  | rounds least most => exact h.rounds ht hstep

theorem InOrder.foldlM (h : r.InOrder) (hts : ∀ t ∈ ts, t.InOrder)
    (hfold : ts.foldlM ReaderState.step r = .ok r') : r'.InOrder :=
  foldlM_invariant (fun t ht _ _ hr hstep => hr.step (hts t ht) hstep) h hfold

end ReaderState

/-- **Counts**: a pattern that is read asks nowhere for more rounds than it allows. -/
theorem Expr.read_inOrder {cs : List Char} {e : Expr} (h : read cs = .ok e) : e.InOrder := by
  obtain ⟨ts, r, hts, hr, hgroups, he⟩ := exists_of_read h
  have hempty : ({} : ReaderState).InOrder :=
    ⟨⟨List.forall_mem_nil _, List.forall_mem_nil _⟩, List.forall_mem_nil _⟩
  rw [ofTokens_of_foldlM hr hgroups] at he
  split at he
  · cases he
  cases he
  exact (hempty.foldlM (inOrder_of_tokens hts) hr).branches.item

end Pattern

open Pattern

namespace Signature

variable {pattern display : String} {s : Signature}

/-- A hand-written pattern that is accepted is read between the ends of a line. -/
theorem exists_read_of_custom (h : custom pattern display = .ok s) :
    ∃ e, Expr.read (opening ++ (pattern.toList ++ closing)) = .ok e ∧
      s.rule = .custom e.toPattern := by
  have hmatcher : ("^(?:" ++ pattern ++ ")$").toList = opening ++ (pattern.toList ++ closing) := by
    rw [String.toList_append, String.toList_append, List.append_assoc]
    rfl
  unfold custom at h
  dsimp only at h
  split at h
  · cases h
  · next p hread =>
    cases h
    rw [hmatcher] at hread
    obtain ⟨e, he, hfits⟩ := bind_eq_ok_iff.mp hread
    split at hfits
    · cases hfits
      exact ⟨e, he, rfl⟩
    · cases hfits

/-- **Whole lines.** A hand-written pattern that is accepted can be read alone if and only if it
leaves the group open that is put around it; and then it matches every line that has the signature
from its first character to its last. -/
theorem custom_anchored (h : custom pattern display = .ok s) :
    ((∃ e, Expr.read pattern.toList = .ok e) ↔ Expr.Encloses pattern.toList) ∧
      ∀ e, Expr.read pattern.toList = .ok e → ∀ line values, s.captures? line = some values →
        e.Matches line.toList 0 line.length := by
  obtain ⟨e', hpasted, hrule⟩ := exists_read_of_custom h
  refine ⟨⟨fun ⟨e, he⟩ => Expr.encloses_of_read he hpasted,
    fun hcs => Expr.exists_read hcs hpasted⟩, ?_⟩
  intro e he line values hline
  have hcaptures : e'.toPattern.captures? line = some values := by
    unfold captures? at hline
    rwa [hrule] at hline
  rw [Expr.read_pasted he hpasted] at hcaptures
  exact Expr.matches_of_captures? (Expr.read_inOrder he) hcaptures

/-- Two branches that can be read alone match whole lines. Where a pattern closes the group put
around it, its first branch is not tied to the end of the line, nor the second to the start; a flag
makes the end of the first line do, and a comment takes the sign for the end away. -/
theorem custom_anchored_branches :
    (∃ s e, custom "x|yz" "x" = .ok s ∧ Expr.read "x|yz".toList = .ok e ∧
      s.captures? "yz" = some [] ∧ e.Matches "yz".toList 0 2) ∧
    (∃ s, custom "x)|(?:y" "x" = .ok s ∧ s.captures? "xz" = some [] ∧
      ¬ Expr.Encloses "x)|(?:y".toList) ∧
    (∃ s, custom "x)(?m)(?:y" "x" = .ok s ∧ s.captures? "xy\nz" = some [] ∧
      ¬ Expr.Encloses "x)(?m)(?:y".toList) ∧
    ∃ s, custom "x)(?x)#" "x" = .ok s ∧ s.captures? "xz" = some [] ∧
      ¬ Expr.Encloses "x)(?x)#".toList := by
  let start : Pattern := .anchor .textStart
  let stop : Pattern := .anchor .textEnd
  let x : Pattern := .one (.only 'x')
  let y : Pattern := .one (.only 'y')
  refine ⟨?_, ?_, ?_, ?_⟩
  · let p : Pattern := .seq start (.seq (.alt 0 x (.seq y (.one (.only 'z')))) stop)
    have hs : custom "x|yz" "x" = .ok
        { raw := "x|yz", display := "x", matcher := "^(?:x|yz)$"
          rule := .custom p, placeholders := [] } := by decide +kernel
    have he : Expr.read "x|yz".toList =
      .ok (.alt (.one (.only 'x')) (.seq (.one (.only 'y')) (.one (.only 'z')))) := rfl
    have hline : p.captures? "yz" = some [] := by
      simp [p, start, stop, x, y, Pattern.captures?, Pattern.find?, Pattern.startsText, run,
        Search.once, Search.first, Search.found, Search.nothing, Anchor.holds, Cursor.advance,
        Pattern.arity, CharSet.only]
    exact ⟨_, _, hs, he, hline, (custom_anchored hs).2 _ he "yz" [] hline⟩
  · let p : Pattern := .alt 0 (.seq start x) (.seq y stop)
    have hs : custom "x)|(?:y" "x" = .ok
        { raw := "x)|(?:y", display := "x", matcher := "^(?:x)|(?:y)$"
          rule := .custom p, placeholders := [] } := by decide +kernel
    have hread : ¬ ∃ e, Expr.read "x)|(?:y".toList = .ok e := by
      rintro ⟨e, he⟩
      cases he
    have hline : p.captures? "xz" = some [] := by
      simp [p, start, stop, x, y, Pattern.captures?, Pattern.find?, Pattern.startsText,
        Pattern.search, run, Search.once, Search.first, Search.found, Anchor.holds,
        Cursor.advance, Pattern.arity, CharSet.only]
    exact ⟨_, hs, hline, mt (custom_anchored hs).1.mpr hread⟩
  · let p : Pattern := .seq start (.seq x (.seq .empty (.seq y (.anchor (.lineEnd false)))))
    have hs : custom "x)(?m)(?:y" "x" = .ok
        { raw := "x)(?m)(?:y", display := "x", matcher := "^(?:x)(?m)(?:y)$"
          rule := .custom p, placeholders := [] } := by decide +kernel
    have hread : ¬ ∃ e, Expr.read "x)(?m)(?:y".toList = .ok e := by
      rintro ⟨e, he⟩
      cases he
    have hline : p.captures? "xy\nz" = some [] := by
      simp [p, start, x, y, Pattern.captures?, Pattern.find?, Pattern.startsText, run,
        Search.found, Anchor.holds, Cursor.precedes, Cursor.advance, Pattern.arity, CharSet.only]
    exact ⟨_, hs, hline, mt (custom_anchored hs).1.mpr hread⟩
  · let p : Pattern := .seq start (.seq x .empty)
    have hs : custom "x)(?x)#" "x" = .ok
        { raw := "x)(?x)#", display := "x", matcher := "^(?:x)(?x)#)$"
          rule := .custom p, placeholders := [] } := by decide +kernel
    have hread : ¬ ∃ e, Expr.read "x)(?x)#".toList = .ok e := by
      rintro ⟨e, he⟩
      cases he
    have hline : p.captures? "xz" = some [] := by
      simp [p, start, x, Pattern.captures?, Pattern.find?, Pattern.startsText, run, Search.found,
        Anchor.holds, Cursor.advance, Pattern.arity, CharSet.only]
    exact ⟨_, hs, hline, mt (custom_anchored hs).1.mpr hread⟩

end Signature

end CommandConsole

import CommandConsole.Pattern.Reader
import CommandConsole.Proofs.Closing
import CommandConsole.Proofs.Language

/-!
# CommandConsole.Proofs.Pasting — a pattern that is pasted between the ends of a line

A pattern is put into a group of its own between the start and the end of a line. As long as its
parentheses pair off, what it says inside the group is what it says alone: the group around it lies
at the bottom of the groups that are open, where nothing of the pattern comes upon it. A pattern
that closes the group itself says something else.

* `ReaderState.nests`: reading inside one more group.
* `Expr.ofTokens_enclosed`: a pasted pattern.
* `Expr.Encloses`, `Expr.exists_read`: which pasted texts can be read alone.
-/

namespace CommandConsole.Pattern

/-! ### Reading inside one more group -/

/-- The token stands for a character or for a place. -/
def Token.Leaf : Token → Prop
  | .atom _ | .dot | .bracket _ => True
  | _ => False

/-- The expression of an atom has no parts. -/
theorem Flags.atom_ok {f : Flags} {a : Atom} {e : Expr} (h : f.atom a = .ok e) :
    (∃ s, e = .one s) ∨ ∃ p, e = .anchor p := by
  cases a with
  | char c byte =>
    rw [atom] at h
    split at h
    · cases h
      exact Or.inl ⟨_, rfl⟩
    · cases h
  | kind negated k =>
    obtain ⟨s, -, rfl⟩ := map_eq_ok_iff.mp h
    exact Or.inl ⟨s, rfl⟩
  | property negated s =>
    obtain ⟨s, -, rfl⟩ := map_eq_ok_iff.mp h
    exact Or.inl ⟨s, rfl⟩
  | place p =>
    cases h
    exact Or.inr ⟨_, rfl⟩

theorem Flags.dot_ok {f : Flags} {e : Expr} (h : f.dot = .ok e) : ∃ s, e = .one s := by
  unfold dot at h
  split at h
  · cases h
  · split at h
    · cases h
      exact ⟨_, rfl⟩
    · split at h <;> cases h <;> exact ⟨_, rfl⟩

namespace ReaderState

variable {r r' : ReaderState} {t : Token} {ts : List Token}

/-! What each action does to the place of the reader. -/

/-- What stands for a character or for a place is added. -/
theorem leaf_ok (h : r.step t = .ok r') (ht : t.Leaf) :
    ∃ e depth, ((∃ s, e = .one s) ∨ ∃ p, e = .anchor p) ∧ r' = r.add ⟨e, depth⟩ := by
  cases t with
  | atom a =>
    obtain ⟨e, he, rfl⟩ := map_eq_ok_iff.mp h
    exact ⟨e, 0, Flags.atom_ok he, rfl⟩
  | dot =>
    obtain ⟨e, he, rfl⟩ := map_eq_ok_iff.mp h
    exact ⟨e, 0, Or.inl (Flags.dot_ok he), rfl⟩
  | bracket c =>
    obtain ⟨e, he, rfl⟩ := map_eq_ok_iff.mp h
    obtain ⟨s, -, rfl⟩ := map_eq_ok_iff.mp he
    exact ⟨_, c.depth, Or.inl ⟨s, rfl⟩, rfl⟩
  | _ => exact ht.elim

theorem openGroup_ok {g : GroupStart} (h : r.openGroup g = .ok r') :
    ∃ flags index captures names, r' =
      { branches := { flags }, groups := ⟨r.branches, index⟩ :: r.groups, captures, names } := by
  unfold openGroup at h
  split at h
  · cases h
    exact ⟨_, _, _, _, rfl⟩
  · split at h
    · cases h
    · cases h
      exact ⟨_, _, _, _, rfl⟩

theorem closeGroup_ok (h : r.closeGroup = .ok r') :
    ∃ around index groups, r.groups = ⟨around, index⟩ :: groups ∧
      r' = { r with branches := around.add (r.branches.item.group index), groups } := by
  unfold closeGroup at h
  split at h
  · cases h
  · next around index groups hgroups =>
    cases h
    exact ⟨around, index, groups, hgroups, rfl⟩

theorem rounds_ok {least : Nat} {most : Option Nat} {greedy : Bool}
    (h : r.rounds least most greedy = .ok r') :
    ∃ i items, r.branches.items = i :: items ∧ r' = { r with branches :=
      { r.branches with items := i.rounds least most greedy :: items } } := by
  unfold rounds at h
  split at h
  · next i items _ hitems =>
    cases h
    exact ⟨i, items, hitems, rfl⟩
  · cases h

/-- The same place with one more group around all others. -/
def inside (g : OpenGroup) (r : ReaderState) : ReaderState := { r with groups := r.groups ++ [g] }

theorem rounds_inside (g : OpenGroup) (least : Nat) (most : Option Nat) (greedy : Bool) :
    (r.inside g).rounds least most greedy = (r.rounds least most greedy).map (inside g) := by
  obtain ⟨⟨flags, earlier, items, repeatable⟩, groups, captures, names⟩ := r
  cases repeatable <;> cases items <;> rfl

theorem addExpr_inside (g : OpenGroup) (depth : Nat) (e : Except PatternFault Expr) :
    (r.inside g).addExpr depth e = (r.addExpr depth e).map (inside g) := by
  cases e <;> rfl

/-- A token that does not close the outermost group is taken as it is without that group. -/
theorem nests (g : OpenGroup) : Nests step (·.groups.length) (inside g) where
  nest_eq {r r' t} h := by
    cases t with
    | atom | dot | bracket =>
      obtain ⟨e, depth, -, rfl⟩ := leaf_ok h trivial
      rfl
    | bar | flags =>
      cases h
      rfl
    | start s =>
      obtain ⟨_, _, _, _, rfl⟩ := openGroup_ok h
      rfl
    | close =>
      obtain ⟨around, index, groups, hgroups, rfl⟩ := closeGroup_ok h
      dsimp only
      rw [hgroups]
      rfl
    | rounds least most =>
      obtain ⟨i, items, -, rfl⟩ := rounds_ok h
      rfl
  inside_eq {r t n} h := by
    cases t with
    | atom | dot | bracket => exact addExpr_inside g _ _
    | bar | flags => rfl
    | start s =>
      cases s with
      | plain change => rfl
      | capturing name =>
        show (r.inside g).openGroup (.capturing name) =
          (r.openGroup (.capturing name)).map (inside g)
        unfold openGroup
        dsimp only [inside]
        cases name.filter r.names.contains with
        | some name => rfl
        | none => rfl
    | close =>
      obtain ⟨branches, groups, captures, names⟩ := r
      cases groups with
      | nil => cases h
      | cons around groups => rfl
    | rounds least most => exact rounds_inside g least most _

end ReaderState

/-! ### A pasted pattern -/

/-- The group that is opened by the characters before a pattern: around it, the start of a line. -/
def enclosure : OpenGroup :=
  ⟨{ items := [{ expr := .anchor .textStart }], repeatable := true }, none⟩

/-- As long as its parentheses pair off, a pasted pattern is read as it is alone, and goes on inside
the group that is put around it. -/
theorem foldlM_openers {ts us : List Token} {opened : Nat} (h : nesting 0 ts = some opened) :
    (openers ++ (ts ++ us)).foldlM ReaderState.step {} =
      ts.foldlM ReaderState.step {} >>= fun r =>
        us.foldlM ReaderState.step (r.inside enclosure) := by
  have hopen : openers.foldlM ReaderState.step {} = .ok (ReaderState.inside enclosure {}) := rfl
  rw [List.foldlM_append, hopen]
  show (ts ++ us).foldlM ReaderState.step (ReaderState.inside enclosure {}) = _
  have hinside := (ReaderState.nests enclosure).foldlM_inside (s := ({} : ReaderState)) h
  rw [List.foldlM_append, hinside]
  cases ts.foldlM ReaderState.step {} <;> rfl

namespace Expr

variable {cs : List Char} {ts : List Token} {e e' : Expr} {r : ReaderState}

/-- Tokens that make a pattern are all taken, and leave no group open. -/
theorem foldlM_of_ofTokens (h : ofTokens ts = .ok e) :
    ∃ r, ts.foldlM ReaderState.step {} = .ok r ∧ r.groups = [] := by
  obtain ⟨r, hr, hbehind⟩ := bind_eq_ok_iff.mp h
  refine ⟨r, hr, ?_⟩
  cases hgroups : r.groups with
  | nil => rfl
  | cons g groups =>
    rw [hgroups] at hbehind
    cases hbehind

theorem nesting_of_ofTokens (h : ofTokens ts = .ok e) : nesting 0 ts = some 0 := by
  obtain ⟨r, hr, hgroups⟩ := foldlM_of_ofTokens h
  have hnest := (ReaderState.nests enclosure).nesting_eq hr
  rwa [hgroups] at hnest

/-- **Pasted patterns**: what tokens make alone they make in a group of their own between the ends
of a line, as long as that is not too deep. -/
theorem ofTokens_enclosed (h : ts.foldlM ReaderState.step {} = .ok r) (hr : r.groups = []) :
    ofTokens (openers ++ (ts ++ closers)) = if depthLimit < r.branches.item.depth + 2
      then .error .tooDeep else .ok r.branches.item.expr.enclosed := by
  let last : Item := { expr := .anchor .textEnd }
  let branches : Branches := (enclosure.around.add (r.branches.item.group none)).add last
  have hnest : nesting 0 ts = some r.groups.length := (ReaderState.nests enclosure).nesting_eq h
  have hfold : (openers ++ (ts ++ closers)).foldlM ReaderState.step {} =
      .ok { r with branches, groups := [] } := by
    rw [foldlM_openers hnest, h]
    obtain ⟨branches, groups, captures, names⟩ := r
    dsimp only at hr
    subst hr
    rfl
  have hdepth : branches.item.depth = r.branches.item.depth + 2 := by
    show max 0 (max (max (max 0 0) (r.branches.item.depth + 1)) 0 + 1) = _
    omega
  rw [ofTokens_of_foldlM hfold rfl]
  dsimp only
  rw [hdepth]
  rfl

/-- The text leaves the group open that is put around it: its own parentheses pair off, and the
parenthesis and the sign for the end of the line that are put behind it are read as such. -/
def Encloses (cs : List Char) : Prop :=
  ∃ ts, tokens (opening ++ (cs ++ closing)) = .ok (openers ++ (ts ++ closers)) ∧
    nesting 0 ts = some 0

theorem exists_of_read (h : read cs = .ok e) : ∃ ts r, tokens cs = .ok ts ∧
    ts.foldlM ReaderState.step {} = .ok r ∧ r.groups = [] ∧ ofTokens ts = .ok e := by
  obtain ⟨ts, hts, he⟩ := bind_eq_ok_iff.mp h
  obtain ⟨r, hr, hgroups⟩ := foldlM_of_ofTokens he
  exact ⟨ts, r, hts, hr, hgroups, he⟩

/-- The tokens of a text that can be read alone, and read pasted. -/
theorem tokens_of_both (he : read cs = .ok e) (he' : read (opening ++ (cs ++ closing)) = .ok e') :
    ∃ ts, tokens cs = .ok ts ∧ ofTokens ts = .ok e ∧
      tokens (opening ++ (cs ++ closing)) = .ok (openers ++ (ts ++ closers)) ∧
      ofTokens (openers ++ (ts ++ closers)) = .ok e' := by
  obtain ⟨ts, hts, he⟩ := bind_eq_ok_iff.mp he
  obtain ⟨us, hus, he'⟩ := bind_eq_ok_iff.mp he'
  obtain rfl := tokens_pasted hts (nesting_of_ofTokens he) hus (nesting_of_ofTokens he')
  exact ⟨ts, hts, he, hus, he'⟩

theorem encloses_of_read (he : read cs = .ok e)
    (he' : read (opening ++ (cs ++ closing)) = .ok e') : Encloses cs := by
  obtain ⟨ts, -, he, hus, -⟩ := tokens_of_both he he'
  exact ⟨ts, hus, nesting_of_ofTokens he⟩

/-- A pasted text that can be read alone is read as the same pattern between the ends of a line. -/
theorem read_pasted (he : read cs = .ok e)
    (he' : read (opening ++ (cs ++ closing)) = .ok e') : e' = e.enclosed := by
  obtain ⟨ts, -, he, -, he'⟩ := tokens_of_both he he'
  obtain ⟨r, hr, hgroups⟩ := foldlM_of_ofTokens he
  rw [ofTokens_of_foldlM hr hgroups] at he
  rw [ofTokens_enclosed hr hgroups] at he'
  split at he
  · cases he
  split at he'
  · cases he'
  cases he
  cases he'
  rfl

/-- A pasted text that leaves the group around it open can be read alone. -/
theorem exists_read (hcs : Encloses cs) (he' : read (opening ++ (cs ++ closing)) = .ok e') :
    ∃ e, read cs = .ok e := by
  obtain ⟨ts, htokens, hnest⟩ := hcs
  unfold read at he'
  rw [htokens] at he'
  change ofTokens (openers ++ (ts ++ closers)) = .ok e' at he'
  obtain ⟨r', hr', -⟩ := foldlM_of_ofTokens he'
  rw [foldlM_openers hnest] at hr'
  obtain ⟨r, hr, -⟩ := bind_eq_ok_iff.mp hr'
  have hgroups : r.groups = [] :=
    List.eq_nil_of_length_eq_zero ((ReaderState.nests enclosure).opened_eq hr hnest)
  rw [ofTokens_enclosed hr hgroups] at he'
  split at he'
  · cases he'
  · next hdepth =>
    refine ⟨r.branches.item.expr, ?_⟩
    unfold read
    rw [tokens_of_pasted htokens hnest]
    show ofTokens ts = _
    rw [ofTokens_of_foldlM hr hgroups, if_neg (by omega)]

end Expr

end CommandConsole.Pattern

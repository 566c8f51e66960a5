import CommandConsole.Proofs.Anchoring

/-!
# CommandConsole.Proofs.Numbering — how the groups of a pattern are numbered

Groups that capture are numbered from one on, in the order in which they open, whatever other groups
they stand in. A pattern that is spelled out has the same groups, but for those in what is repeated
no times. The number of values that it gives is the greatest number of a group that is left.

* `Expr.groups`, `Expr.used`: the groups of a pattern, and those that are left.
* `ReaderState.Numbered`: the groups of what has been read of a pattern.
* `Expr.groups_of_read`: the groups of a pattern that has been read.
* `Expr.arity_of_read`: how many values it gives.
-/

namespace CommandConsole.Pattern

namespace Expr

/-- The numbers of the groups, in the order in which they open. -/
def groups : Expr → List Nat
  | empty | one _ | anchor _ => []
  | seq a b | alt a b => a.groups ++ b.groups
  | rounds _ _ _ a => a.groups
  | group index a => index :: a.groups

/-- The numbers of the groups that do not stand in what is repeated no times. -/
def used : Expr → List Nat
  | empty | one _ | anchor _ => []
  | seq a b | alt a b => a.used ++ b.used
  | rounds _ most _ a => if most = some 0 then [] else a.used
  | group index a => index :: a.used

theorem groups_sequence (es : List Expr) : (sequence es).groups = es.flatMap groups := by
  fun_induction sequence es with
  | case1 => rfl
  | case2 e => simp
  | case3 e es _ ih =>
    show e.groups ++ (sequence es).groups = _
    rw [ih, List.flatMap_cons]

theorem groups_anyOf (es : List Expr) : (anyOf es).groups = es.flatMap groups := by
  fun_induction anyOf es with
  | case1 => rfl
  | case2 e => simp
  | case3 e es _ ih =>
    show e.groups ++ (anyOf es).groups = _
    rw [ih, List.flatMap_cons]

end Expr

/-! ### Groups of what has been read -/

/-- The groups of the branches, in the order in which they open. -/
def Branches.groups (b : Branches) : List Nat :=
  b.earlier.reverse.flatMap (·.expr.groups) ++ b.items.reverse.flatMap (·.expr.groups)

namespace Branches

variable {b : Branches}

theorem groups_add (b : Branches) (i : Item) : (b.add i).groups = b.groups ++ i.expr.groups := by
  show _ ++ (i :: b.items).reverse.flatMap _ = _
  rw [List.reverse_cons, List.flatMap_append, List.flatMap_singleton, ← List.append_assoc]
  rfl

theorem groups_last (b : Branches) :
    b.last.expr.groups = b.items.reverse.flatMap (·.expr.groups) := by
  show (Expr.sequence _).groups = _
  rw [Expr.groups_sequence, List.flatMap_map]

theorem groups_item (b : Branches) : b.item.expr.groups = b.groups := by
  show (Expr.anyOf _).groups = _
  rw [Expr.groups_anyOf, List.flatMap_map, List.reverse_cons, List.flatMap_append,
    List.flatMap_singleton, groups_last]
  rfl

/-- An item in place of the newest one changes nothing if its groups are the same. -/
theorem groups_replace {i j : Item} {items : List Item} (h : b.items = j :: items)
    (hi : i.expr.groups = j.expr.groups) :
    ({ b with items := i :: items } : Branches).groups = b.groups := by
  unfold groups
  rw [h]
  simp [hi]

end Branches

namespace ReaderState

/-- The groups of all that has been read, in the order in which they open. -/
def numbers (r : ReaderState) : List Nat :=
  r.groups.reverse.flatMap (fun g => g.around.groups ++ g.index.toList) ++ r.branches.groups

/-- The groups are numbered as they open. -/
def Numbered (r : ReaderState) : Prop := r.numbers = List.range' 1 r.captures

variable {r r' : ReaderState} {t : Token} {ts : List Token}

/-- Items without groups can be added. -/
theorem Numbered.add (h : r.Numbered) {i : Item} (hi : i.expr.groups = []) :
    (r.add i).Numbered := by
  show _ ++ (r.branches.add i).groups = _
  rw [Branches.groups_add, hi, List.append_nil]
  exact h

/-- A group that is opened adds its own number. -/
theorem numbers_opened (r : ReaderState) (flags : Flags) (index : Option Nat) (captures : Nat)
    (names : List String) : ReaderState.numbers
      { branches := { flags }, groups := ⟨r.branches, index⟩ :: r.groups, captures, names } =
        r.numbers ++ index.toList := by
  unfold ReaderState.numbers
  dsimp only
  rw [List.reverse_cons, List.flatMap_append, List.flatMap_singleton, List.append_assoc,
    List.append_assoc, List.append_assoc]
  exact congrArg (fun inner => _ ++ (_ ++ inner)) (List.append_nil _)

theorem Numbered.openGroup (h : r.Numbered) {g : GroupStart} (hr : r.openGroup g = .ok r') :
    r'.Numbered := by
  unfold ReaderState.openGroup at hr
  split at hr
  · cases hr
    unfold Numbered
    rw [numbers_opened, Option.toList_none, List.append_nil]
    exact h
  · split at hr
    · cases hr
    · cases hr
      unfold Numbered
      rw [numbers_opened, h, List.range'_1_concat, Nat.add_comm 1]
      rfl

theorem Numbered.closeGroup (h : r.Numbered) (hr : r.closeGroup = .ok r') : r'.Numbered := by
  obtain ⟨around, index, groups, hgroups, rfl⟩ := closeGroup_ok hr
  have hitem : (r.branches.item.group index).expr.groups = index.toList ++ r.branches.groups := by
    rw [← Branches.groups_item]
    cases index <;> rfl
  refine Eq.trans ?_ h
  unfold ReaderState.numbers
  dsimp only
  rw [Branches.groups_add, hitem, hgroups, List.reverse_cons, List.flatMap_append,
    List.flatMap_singleton]
  simp only [List.append_assoc]

theorem Numbered.rounds (h : r.Numbered) {least : Nat} {most : Option Nat} {greedy : Bool}
    (hr : r.rounds least most greedy = .ok r') : r'.Numbered := by
  obtain ⟨i, items, hitems, rfl⟩ := rounds_ok hr
  refine Eq.trans (congrArg (_ ++ ·) ?_) h
  exact Branches.groups_replace (i := i.rounds least most greedy) hitems rfl

theorem Numbered.bar (h : r.Numbered) (flags : Flags) : Numbered { r with branches :=
    { flags, earlier := r.branches.last :: r.branches.earlier } } := by
  refine Eq.trans (congrArg (_ ++ ·) ?_) h
  show (r.branches.last :: r.branches.earlier).reverse.flatMap _ ++ [] = _
  rw [List.append_nil, List.reverse_cons, List.flatMap_append, List.flatMap_singleton,
    Branches.groups_last]
  rfl

/-- **Steps**: each token keeps the groups numbered. -/
theorem Numbered.step (h : r.Numbered) (hstep : r.step t = .ok r') : r'.Numbered := by
  cases t with
  | atom | dot | bracket =>
    obtain ⟨e, depth, he, rfl⟩ := leaf_ok hstep trivial
    refine h.add ?_
    obtain ⟨s, rfl⟩ | ⟨p, rfl⟩ := he <;> rfl
  | start g => exact h.openGroup hstep
  | close => exact h.closeGroup hstep
  | bar =>
    cases hstep
    exact h.bar _
  | flags change =>
    cases hstep
    exact h.add (i := { expr := .empty }) rfl
  | rounds least most => exact h.rounds hstep

theorem Numbered.foldlM (h : r.Numbered) (hfold : ts.foldlM ReaderState.step r = .ok r') :
    r'.Numbered :=
  foldlM_invariant (fun _ _ _ _ hr hstep => hr.step hstep) h hfold

end ReaderState

namespace Expr

variable {cs : List Char} {e : Expr}

/-- **Numbers**: the groups of a pattern that has been read are numbered from one on. -/
theorem groups_of_read (h : read cs = .ok e) : e.groups = List.range' 1 e.groups.length := by
  obtain ⟨ts, r, -, hr, hgroups, he⟩ := exists_of_read h
  have hempty : ReaderState.Numbered {} := rfl
  have hnumbers : r.numbers = _ := hempty.foldlM hr
  rw [ofTokens_of_foldlM hr hgroups] at he
  split at he
  · cases he
  cases he
  rw [ReaderState.numbers, hgroups] at hnumbers
  have hitem : r.branches.item.expr.groups = List.range' 1 r.captures :=
    (Branches.groups_item _).trans hnumbers
  rw [hitem, List.length_range']

/-! ### Groups of what is spelled out -/

section Build

variable {make : StateM Nat Pattern} {m : Nat}

theorem arity_copies (hmake : ∀ n, (make n).1.arity = m) (count n : Nat) :
    (copies make count n).1.arity = if count = 0 then 0 else m := by
  induction count generalizing n with
  | zero => rfl
  | succ count ih =>
    cases count with
    | zero => exact hmake n
    | succ count =>
      show max (make n).1.arity (copies make (count + 1) (make n).2).1.arity = m
      rw [hmake, ih, if_neg (Nat.succ_ne_zero count), Nat.max_self]

theorem arity_optional (greedy : Bool) (p : Pattern) (n : Nat) :
    (optional greedy p n).1.arity = p.arity := by
  cases greedy with
  | true => exact Nat.max_zero _
  | false => exact Nat.zero_max _

theorem arity_upTo (hmake : ∀ n, (make n).1.arity = m) (greedy : Bool) (count n : Nat) :
    (upTo greedy make count n).1.arity = if count = 0 then 0 else m := by
  induction count generalizing n with
  | zero => rfl
  | succ count ih =>
    refine (arity_optional greedy _ _).trans ?_
    show max (make n).1.arity (upTo greedy make count (make n).2).1.arity = m
    rw [hmake, ih]
    split
    · exact Nat.max_zero m
    · exact Nat.max_self m

/-- So many copies, and then up to so many more. -/
theorem arity_counted (hmake : ∀ n, (make n).1.arity = m) (greedy : Bool) (least more n : Nat) :
    ((do return .seq (← copies make least) (← upTo greedy make more) :
      StateM Nat Pattern) n).1.arity = if least + more = 0 then 0 else m := by
  show max (copies make least n).1.arity (upTo greedy make more (copies make least n).2).1.arity = _
  rw [arity_copies hmake, arity_upTo hmake]
  split <;> split <;> split <;> omega

end Build

/-- A pattern that is spelled out has the groups that are left, and no others. -/
theorem arity_build (he : e.InOrder) (n : Nat) : (e.build n).1.arity = e.used.foldr max 0 := by
  have append (as bs : List Nat) :
      (as ++ bs).foldr max 0 = max (as.foldr max 0) (bs.foldr max 0) := by
    induction as with
    | nil => exact (Nat.zero_max _).symm
    | cons a as ih => rw [List.cons_append, List.foldr_cons, List.foldr_cons, ih, Nat.max_assoc]
  induction e generalizing n with
  | empty | one | anchor => rfl
  | seq a b iha ihb =>
    show max (a.build n).1.arity (b.build (a.build n).2).1.arity = (a.used ++ b.used).foldr max 0
    rw [iha he.1, ihb he.2, append]
  | alt a b iha ihb =>
    show max (a.build (n + 1)).1.arity (b.build (a.build (n + 1)).2).1.arity =
      (a.used ++ b.used).foldr max 0
    rw [iha he.1, ihb he.2, append]
  | group index a ih =>
    show max index (a.build n).1.arity = (index :: a.used).foldr max 0
    rw [ih he, List.foldr_cons]
  | rounds least most greedy a ih =>
    obtain ⟨horder, ha⟩ := he
    have hmake := fun n => ih ha n
    have hused : (used (.rounds least most greedy a)).foldr max 0 =
        if most = some 0 then 0 else a.used.foldr max 0 := by
      show (if most = some 0 then [] else a.used).foldr max 0 = _
      split <;> rfl
    rw [hused]
    unfold build counts
    cases a.onlyEmpty with
    | true =>
      refine (arity_counted hmake greedy _ _ _).trans (if_congr ?_ rfl rfl)
      have hmin (most : Nat) : most.min 1 = min most 1 := rfl
      cases most with
      | none =>
        rw [Option.getD_none, hmin]
        simp only [reduceCtorEq, iff_false]
        omega
      | some most =>
        have hle := horder most rfl
        rw [Option.getD_some, Option.some.injEq, hmin]
        omega
    | false =>
      cases most with
      | some most =>
        have hle := horder most rfl
        refine (arity_counted hmake greedy _ _ _).trans (if_congr ?_ rfl rfl)
        rw [Option.some.injEq]
        omega
      | none =>
        rw [if_neg (Option.some_ne_none 0).symm]
        cases least with
        | zero =>
          cases a.nullable with
          | true => exact (arity_optional greedy _ _).trans (hmake _)
          | false => exact hmake _
        | succ least =>
          show max (copies a.build least n).1.arity (a.build _).1.arity = _
          rw [arity_copies hmake, hmake]
          split <;> omega

/-- **Values**: a pattern that has been read gives as many values as the greatest number says that a
group has which is left. -/
theorem arity_of_read (h : read cs = .ok e) : e.toPattern.arity = e.used.foldr max 0 :=
  arity_build (read_inOrder h) 0

/-- If all groups are left, it gives a value for each of them. -/
theorem arity_eq_length (h : read cs = .ok e) (hused : e.used = e.groups) :
    e.toPattern.arity = e.groups.length := by
  have hlast (first n : Nat) :
      (List.range' first n).foldr max 0 = if n = 0 then 0 else first + n - 1 := by
    induction n generalizing first with
    | zero => rfl
    | succ n ih =>
      rw [List.range'_succ, List.foldr_cons, ih]
      split <;> split <;> omega
  rw [arity_of_read h, hused, groups_of_read h, hlast, List.length_range']
  split <;> omega

end Expr

end CommandConsole.Pattern

import Mathlib.Data.List.Forall2

/-!
# CommandConsole.Proofs.Except — computations that may fail

What is known of the parts of a computation that has succeeded, or that has failed.

* `map_eq_ok_iff`, `bind_eq_ok_iff` and their companions: one step after the other.
* `foldlM_invariant`: steps that go through a list.
* `mapM_eq_ok_iff`, `mapM_eq_error_iff`: traversals.
-/

namespace CommandConsole

variable {α β ε : Type}

theorem map_eq_ok_iff {f : α → β} {x : Except ε α} {b : β} :
    x.map f = .ok b ↔ ∃ a, x = .ok a ∧ f a = b := by
  cases x <;> simp [Except.map]

theorem map_eq_error_iff {f : α → β} {x : Except ε α} {e : ε} :
    x.map f = .error e ↔ x = .error e := by
  cases x <;> simp [Except.map]

theorem bind_eq_ok_iff {f : α → Except ε β} {x : Except ε α} {b : β} :
    x >>= f = .ok b ↔ ∃ a, x = .ok a ∧ f a = .ok b := by
  cases x <;> simp [bind, Except.bind]

theorem bind_eq_error_iff {f : α → Except ε β} {x : Except ε α} {e : ε} :
    x >>= f = .error e ↔ x = .error e ∨ ∃ a, x = .ok a ∧ f a = .error e := by
  cases x <;> simp [bind, Except.bind]

/-- What every step keeps is true in the end. -/
theorem foldlM_invariant {P : β → Prop} {step : β → α → Except ε β} {xs : List α} {b b' : β}
    (hstep : ∀ x ∈ xs, ∀ c c', P c → step c x = .ok c' → P c') (hb : P b)
    (h : xs.foldlM step b = .ok b') : P b' := by
  induction xs generalizing b with
  | nil =>
    cases h
    exact hb
  | cons x xs ih =>
    rw [List.foldlM_cons] at h
    obtain ⟨c, hfirst, hlater⟩ := bind_eq_ok_iff.mp h
    obtain ⟨hx, hxs⟩ := List.forall_mem_cons.mp hstep
    exact ih hxs (hx b c hb hfirst) hlater

theorem mapM_cons_eq_bind (f : α → Except ε β) (x : α) (xs : List α) :
    (x :: xs).mapM f = f x >>= fun y => (xs.mapM f).map (y :: ·) := by
  rw [List.mapM_cons]
  rfl

/-- The results of a successful traversal are those of the members, one by one. -/
theorem mapM_eq_ok_iff {f : α → Except ε β} {xs : List α} {ys : List β} :
    xs.mapM f = .ok ys ↔ List.Forall₂ (fun x y => f x = .ok y) xs ys := by
  induction xs generalizing ys with
  | nil => simp [pure, Except.pure, eq_comm]
  | cons x xs ih =>
    rw [mapM_cons_eq_bind, bind_eq_ok_iff, List.forall₂_cons_left_iff]
    simp only [map_eq_ok_iff, ih]
    constructor
    · rintro ⟨y, hy, ys, hys, rfl⟩
      exact ⟨y, ys, hy, hys, rfl⟩
    · rintro ⟨y, ys, hy, hys, rfl⟩
      exact ⟨y, hy, ys, hys, rfl⟩

/-- Where a list is split, the first member stands behind nothing or in front of the place. -/
theorem exists_split_cons {P : List α → α → Prop} {x : α} {xs : List α} :
    (∃ front y rest, x :: xs = front ++ y :: rest ∧ P front y) ↔
      P [] x ∨ ∃ front y rest, xs = front ++ y :: rest ∧ P (x :: front) y := by
  constructor
  · rintro ⟨_ | ⟨z, front⟩, y, rest, hsplit, hP⟩
    · obtain ⟨rfl, rfl⟩ := List.cons.inj hsplit
      exact .inl hP
    · obtain ⟨rfl, rfl⟩ := List.cons.inj hsplit
      exact .inr ⟨front, y, rest, rfl, hP⟩
  · rintro (hP | ⟨front, y, rest, rfl, hP⟩)
    · exact ⟨[], x, xs, rfl, hP⟩
    · exact ⟨x :: front, y, rest, rfl, hP⟩

/-- A traversal ends with the first error. -/
theorem mapM_eq_error_iff {f : α → Except ε β} {xs : List α} {e : ε} :
    xs.mapM f = .error e ↔ ∃ front x rest, xs = front ++ x :: rest ∧
      (∀ y ∈ front, ∃ z, f y = .ok z) ∧ f x = .error e := by
  induction xs with
  | nil => simp [pure, Except.pure]
  | cons x xs ih =>
    rw [mapM_cons_eq_bind, bind_eq_error_iff, exists_split_cons]
    simp only [map_eq_error_iff, ih, List.forall_mem_cons, List.not_mem_nil, false_implies,
      implies_true, true_and]
    refine or_congr_right ?_
    constructor
    · rintro ⟨z, hz, front, y, rest, rfl, hfront, hy⟩
      exact ⟨front, y, rest, rfl, ⟨⟨z, hz⟩, hfront⟩, hy⟩
    · rintro ⟨front, y, rest, rfl, ⟨⟨z, hz⟩, hfront⟩, hy⟩
      exact ⟨z, hz, front, y, rest, rfl, hfront, hy⟩

end CommandConsole

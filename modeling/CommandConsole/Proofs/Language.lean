import CommandConsole.Pattern.Expr
import CommandConsole.Proofs.Capturing

/-!
# CommandConsole.Proofs.Language — what a written pattern matches

A written pattern matches a stretch of a line: a character that is in its set, the empty stretch
where a condition holds, and stretches side by side. A search finds no other matches: however it
prefers choices, gives up those that it has tried, and spells out counts, what it finds is a stretch
that the written pattern matches.

* `Expr.Matches`: the stretches of a line that a written pattern matches.
* `Takes.matches`, `run_sound`: what a search takes, and has passed when it goes on.
* `Expr.InOrder`, `Expr.matches_of_build`: counts in order are spelled out rightly.
* `Expr.matches_of_captures?`: a pattern between the ends of a line matches all of it.
-/

namespace CommandConsole.Pattern

/-! ### Stretches of a line -/

/-- So many stretches side by side. -/
inductive Repeated (R : Nat → Nat → Prop) : Nat → Nat → Nat → Prop
  | zero (i : Nat) : Repeated R 0 i i
  | succ {n i j k : Nat} : R i j → Repeated R n j k → Repeated R (n + 1) i k

namespace Repeated

variable {R S : Nat → Nat → Prop} {m n i j k : Nat}

theorem mono (h : Repeated R n i j) (hRS : ∀ i j, R i j → S i j) : Repeated S n i j := by
  induction h with
  | zero i => exact .zero i
  | succ hR _ ih => exact .succ (hRS _ _ hR) ih

theorem append (h : Repeated R m i j) (h' : Repeated R n j k) : Repeated R (m + n) i k := by
  induction h with
  | zero i => rwa [Nat.zero_add]
  | succ hR _ ih =>
    rw [Nat.add_right_comm]
    exact .succ hR (ih h')

theorem eq_of_zero (h : Repeated R 0 i j) : j = i := by
  cases h
  rfl

/-- An empty stretch can be repeated at will. -/
theorem of_refl (h : R i i) (n : Nat) : Repeated R n i i := by
  induction n with
  | zero => exact .zero i
  | succ n ih => exact .succ h ih

/-- What each stretch keeps, all of them keep. -/
theorem keeps {P : Nat → Prop} (h : Repeated R n i j) (hR : ∀ i j, R i j → P i → P j) (hi : P i) :
    P j := by
  induction h with
  | zero => exact hi
  | succ hstep _ ih => exact ih (hR _ _ hstep hi)

end Repeated

/-- The pattern matches the characters of the line from one place up to another. -/
def Matches (line : List Char) : Pattern → Nat → Nat → Prop
  | empty, i, j => j = i
  | one set, i, j => (∃ c, (line.drop i).head? = some c ∧ set.contains c = true) ∧ j = i + 1
  | anchor a, i, j => a.holds (.ofPosition line i) = true ∧ j = i
  | seq a b, i, k => ∃ j, a.Matches line i j ∧ b.Matches line j k
  | alt _ a b, i, j => a.Matches line i j ∨ b.Matches line i j
  | many _ _ a, i, j => ∃ n, Repeated (a.Matches line) n i j
  | atLeastOne _ _ a, i, j => ∃ n, Repeated (a.Matches line) (n + 1) i j
  | group _ a, i, j => a.Matches line i j

namespace Expr

/-- The written pattern matches the characters of the line from one place up to another. -/
def Matches (line : List Char) : Expr → Nat → Nat → Prop
  | empty, i, j => j = i
  | one set, i, j => (∃ c, (line.drop i).head? = some c ∧ set.contains c = true) ∧ j = i + 1
  | anchor a, i, j => a.holds (.ofPosition line i) = true ∧ j = i
  | seq a b, i, k => ∃ j, a.Matches line i j ∧ b.Matches line j k
  | alt a b, i, j => a.Matches line i j ∨ b.Matches line i j
  | rounds least most _ a, i, j =>
    ∃ n, least ≤ n ∧ (∀ m, most = some m → n ≤ m) ∧ Repeated (a.Matches line) n i j
  | group _ a, i, j => a.Matches line i j

/-- A match does not go over the end of the line. -/
theorem Matches.le_length {line : List Char} {e : Expr} {i j : Nat} (h : e.Matches line i j)
    (hi : i ≤ line.length) : j ≤ line.length := by
  induction e generalizing i j with
  | empty =>
    obtain rfl := h
    exact hi
  | one set =>
    obtain ⟨⟨c, hc, -⟩, rfl⟩ := h
    rw [List.head?_drop] at hc
    obtain ⟨hlt, -⟩ := List.getElem?_eq_some_iff.mp hc
    exact hlt
  | anchor a =>
    obtain ⟨-, rfl⟩ := h
    exact hi
  | seq a b iha ihb =>
    obtain ⟨k, ha, hb⟩ := h
    exact ihb hb (iha ha hi)
  | alt a b iha ihb => exact h.elim (fun ha => iha ha hi) fun hb => ihb hb hi
  | rounds least most greedy a ih =>
    obtain ⟨n, -, -, hrounds⟩ := h
    exact hrounds.keeps (P := (· ≤ line.length)) (fun _ _ ha => ih ha) hi
  | group index a ih => exact ih h hi

end Expr

/-! ### What a search has passed -/

section Search

variable {α : Type} {line : List Char} {x : α}

/-- A search has gone on from some place, with what it had tried by then. -/
def GoesOnFrom (line : List Char) (R : Nat → Nat → Prop) (next : Cursor → Search α) (s : Cursor)
    (x : α) : Prop :=
  ∃ t tried, t.On line ∧ R s.position t.position ∧ (next t tried).1 = some x

/-- Parts put aside, rounds are so many stretches side by side. -/
theorem InRounds.exists_repeated {S : Nat → Nat → Prop} {R : Nat → Nat → List Part → Prop}
    {i j : Nat} {parts : List Part} (h : InRounds R i j parts)
    (hR : ∀ i j parts, R i j parts → S i j) : ∃ n, Repeated S n i j := by
  induction h with
  | none i => exact ⟨0, .zero i⟩
  | more hfirst _ ih =>
    obtain ⟨n, hn⟩ := ih
    exact ⟨n + 1, .succ (hR _ _ _ hfirst) hn⟩

/-- Parts put aside, what a pattern takes is a stretch that it matches. -/
theorem Takes.matches {p : Pattern} {i j : Nat} {parts : List Part}
    (h : p.Takes line i j parts) : p.Matches line i j := by
  induction p generalizing i j parts with
  | empty | one | anchor => exact h.1
  | seq a b iha ihb =>
    obtain ⟨k, _, _, ha, hb, -⟩ := h
    exact ⟨k, iha ha, ihb hb⟩
  | alt mark a b iha ihb => exact h.imp iha ihb
  | many greedy mark a ih => exact InRounds.exists_repeated h fun _ _ _ => ih
  | atLeastOne greedy mark a ih =>
    obtain ⟨k, _, _, hfirst, hlater, -⟩ := h
    obtain ⟨n, hn⟩ := hlater.exists_repeated fun _ _ _ => ih
    exact ⟨n, .succ (ih hfirst) hn⟩
  | group index a ih =>
    obtain ⟨_, ha, -⟩ := h
    exact ih ha

/-- **Searches**: before it goes on, a search has passed a stretch that the pattern matches. -/
theorem run_sound (p : Pattern) {next : Cursor → Search α} {s : Cursor} {tried : Tried}
    (hs : s.On line) (h : (p.run next s tried).1 = some x) :
    GoesOnFrom line (p.Matches line) next s x := by
  obtain ⟨t, tried', _, ht, htakes, -, h⟩ := run_takes p hs h
  exact ⟨t, tried', ht, htakes.matches, h⟩

end Search

/-! ### Counts that are spelled out -/

namespace Expr

/-- The counts of repetitions are in order: none asks for more rounds than it allows. -/
def InOrder : Expr → Prop
  | empty | one _ | anchor _ => True
  | seq a b | alt a b => a.InOrder ∧ b.InOrder
  | rounds least most _ a => (∀ m, most = some m → least ≤ m) ∧ a.InOrder
  | group _ a => a.InOrder

/-- Where only the empty text can match, a match is empty. -/
theorem Matches.eq_of_onlyEmpty {line : List Char} {e : Expr} {i j : Nat}
    (h : e.Matches line i j) (he : e.onlyEmpty = true) : j = i := by
  induction e generalizing i j with
  | empty => exact h
  | one set => cases he
  | anchor a => exact h.2
  | seq a b iha ihb =>
    obtain ⟨hea, heb⟩ := Bool.and_eq_true_iff.mp he
    obtain ⟨k, ha, hb⟩ := h
    exact (ihb hb heb).trans (iha ha hea)
  | alt a b iha ihb =>
    obtain ⟨hea, heb⟩ := Bool.and_eq_true_iff.mp he
    exact h.elim (fun ha => iha ha hea) fun hb => ihb hb heb
  | rounds least most greedy a ih =>
    obtain ⟨n, -, hmost, hrounds⟩ := h
    rcases Bool.or_eq_true_iff.mp he with hzero | hea
    · obtain rfl : n = 0 := Nat.le_zero.mp (hmost 0 (beq_iff_eq.mp hzero))
      exact hrounds.eq_of_zero
    · exact hrounds.keeps (P := (· = i)) (fun _ _ ha hi => (ih ha hea).trans hi) rfl
  | group index a ih => exact ih h he

section Build

variable {line : List Char} {make : StateM Nat Pattern} {R : Nat → Nat → Prop} {n i j : Nat}

/-- Copies of a pattern match so many stretches side by side. -/
theorem repeated_of_copies (hmake : ∀ n i j, (make n).1.Matches line i j → R i j) (count : Nat)
    (h : (copies make count n).1.Matches line i j) : Repeated R count i j := by
  induction count generalizing n i with
  | zero =>
    obtain rfl := h
    exact .zero j
  | succ count ih =>
    cases count with
    | zero => exact .succ (hmake _ _ _ h) (.zero j)
    | succ count =>
      obtain ⟨k, hfirst, hlater⟩ := h
      exact .succ (hmake _ _ _ hfirst) (ih hlater)

theorem matches_of_optional {greedy : Bool} {p : Pattern}
    (h : (optional greedy p n).1.Matches line i j) : p.Matches line i j ∨ j = i := by
  cases greedy with
  | true => exact h
  | false => exact h.symm

/-- Patterns each of which may be missing match so many stretches or fewer. -/
theorem repeated_of_upTo (hmake : ∀ n i j, (make n).1.Matches line i j → R i j) {greedy : Bool}
    {most : Nat} (h : (upTo greedy make most n).1.Matches line i j) :
    ∃ count ≤ most, Repeated R count i j := by
  induction most generalizing n i with
  | zero =>
    obtain rfl := h
    exact ⟨0, Nat.le_refl 0, .zero j⟩
  | succ most ih =>
    rcases matches_of_optional h with ⟨k, hfirst, hlater⟩ | rfl
    · obtain ⟨count, hcount, hrepeated⟩ := ih hlater
      exact ⟨count + 1, Nat.succ_le_succ hcount, .succ (hmake _ _ _ hfirst) hrepeated⟩
    · exact ⟨0, Nat.zero_le _, .zero j⟩

/-- So many copies, and then up to so many more. -/
theorem repeated_of_counted (hmake : ∀ n i j, (make n).1.Matches line i j → R i j)
    {greedy : Bool} {least more : Nat}
    (h : ((do return .seq (← copies make least) (← upTo greedy make more) :
      StateM Nat Pattern) n).1.Matches line i j) :
    ∃ count, least ≤ count ∧ count ≤ least + more ∧ Repeated R count i j := by
  obtain ⟨k, hfirst, hlater⟩ := h
  obtain ⟨count, hcount, hrepeated⟩ := repeated_of_upTo hmake hlater
  exact ⟨least + count, Nat.le_add_right _ _, Nat.add_le_add_left hcount _,
    (repeated_of_copies hmake least hfirst).append hrepeated⟩

end Build

/-- Where only empty stretches match, one round stands for as many as are needed. -/
theorem matches_rounds_of_onlyEmpty {line : List Char} {least : Nat} {most : Option Nat}
    {greedy : Bool} {a : Expr} (horder : ∀ m, most = some m → least ≤ m)
    (hempty : a.onlyEmpty = true) {count i j : Nat} (hleast : min least 1 ≤ count)
    (hmost : count ≤ min least 1 + ((most.getD 1).min 1 - min least 1))
    (h : Repeated (a.Matches line) count i j) : (rounds least most greedy a).Matches line i j := by
  have hsame : ∀ i j, a.Matches line i j → j = i := fun i j ha => ha.eq_of_onlyEmpty hempty
  cases least with
  | zero =>
    refine ⟨count, Nat.zero_le _, fun m hm => ?_, h⟩
    subst hm
    have hmin : m.min 1 ≤ m := Nat.min_le_left m 1
    rw [Option.getD_some] at hmost
    omega
  | succ least =>
    cases h with
    | zero => omega
    | @succ _ _ k _ hfirst hlater =>
      obtain rfl := hsame _ _ hfirst
      obtain rfl : j = k :=
        hlater.keeps (P := (· = k)) (fun _ _ ha hi => (hsame _ _ ha).trans hi) rfl
      exact ⟨least + 1, Nat.le_refl _, horder, .of_refl hfirst _⟩

/-- **Counts**: what a spelled out pattern matches, the written one matches. -/
theorem matches_of_build {line : List Char} (e : Expr) (he : e.InOrder) {n i j : Nat}
    (h : (e.build n).1.Matches line i j) : e.Matches line i j := by
  induction e generalizing n i j with
  | empty | one | anchor => exact h
  | seq a b iha ihb =>
    obtain ⟨k, ha, hb⟩ := h
    exact ⟨k, iha he.1 ha, ihb he.2 hb⟩
  | alt a b iha ihb => exact h.imp (iha he.1) (ihb he.2)
  | group index a ih => exact ih he h
  | rounds least most greedy a ih =>
    obtain ⟨horder, hea⟩ := he
    have hmake : ∀ n i j, (a.build n).1.Matches line i j → a.Matches line i j :=
      fun n i j h => ih hea h
    unfold build counts at h
    cases hempty : a.onlyEmpty with
    | true =>
      rw [hempty] at h
      obtain ⟨count, hleast, hmost, hrepeated⟩ := repeated_of_counted hmake h
      exact matches_rounds_of_onlyEmpty horder hempty hleast hmost hrepeated
    | false =>
      rw [hempty] at h
      cases most with
      | some most =>
        obtain ⟨count, hleast, hmost, hrepeated⟩ := repeated_of_counted hmake h
        have hle := horder most rfl
        refine ⟨count, hleast, fun m hm => ?_, hrepeated⟩
        obtain rfl := Option.some.inj hm
        omega
      | none =>
        cases least with
        | zero =>
          cases hnull : a.nullable with
          | true =>
            rw [hnull] at h
            rcases matches_of_optional h with ⟨count, hrepeated⟩ | rfl
            · exact ⟨count + 1, Nat.zero_le _, nofun, hrepeated.mono fun _ _ => hmake _ _ _⟩
            · exact ⟨0, Nat.zero_le _, nofun, .zero j⟩
          | false =>
            rw [hnull] at h
            obtain ⟨count, hrepeated⟩ := h
            exact ⟨count, Nat.zero_le _, nofun, hrepeated.mono fun _ _ => hmake _ _ _⟩
        | succ least =>
          obtain ⟨k, hfirst, count, hrepeated⟩ := h
          refine ⟨least + (count + 1), by omega, nofun, ?_⟩
          exact (repeated_of_copies hmake least hfirst).append
            (hrepeated.mono fun _ _ => hmake _ _ _)

/-- The pattern between the start and the end of a line. -/
def enclosed (e : Expr) : Expr := .seq (.anchor .textStart) (.seq e (.anchor .textEnd))

/-- **Whole lines**: a pattern between the ends of a line matches all of the line. -/
theorem matches_of_captures? {e : Expr} (he : e.InOrder) {line : String} {values : List String}
    (h : e.enclosed.toPattern.captures? line = some values) :
    e.Matches line.toList 0 line.length := by
  have hstart : e.enclosed.toPattern.startsText = true := rfl
  have horder : e.enclosed.InOrder := ⟨trivial, he, trivial⟩
  have hon : Cursor.On line.toList { rest := line.toList } := rfl
  obtain ⟨s, hs, -⟩ := Option.map_eq_some_iff.mp h
  unfold find? at hs
  rw [if_pos hstart] at hs
  obtain ⟨t, -, -, hbuilt, -⟩ := run_sound _ hon hs
  obtain ⟨_, ⟨-, rfl⟩, k, hmatches, hend, -⟩ := matches_of_build _ horder hbuilt
  have hlast : line.toList.length ≤ k := by
    have hempty : (line.toList.drop k).isEmpty = true := hend
    exact List.drop_eq_nil_iff.mp (List.isEmpty_iff.mp hempty)
  have hle : k ≤ line.toList.length := hmatches.le_length (Nat.zero_le _)
  obtain rfl : k = line.length := Nat.le_antisymm hle hlast
  exact hmatches

end Expr

end CommandConsole.Pattern

import Std.Data.HashSet.Lemmas
import CommandConsole.Pattern

/-!
# CommandConsole.Proofs.Backtracking — what a search finds, told without its memory

A search remembers the choices that it has tried, and gives up at once where one comes up again. It
may do so because a choice that comes up again at the same place can lead no further than before:
what follows it is the same, and whether that matches does not depend on what is captured. This
holds for patterns whose choices have marks in the order in which they come up, and whose
repetitions repeat single characters only.

* `attempt`: matching without a memory.
* `Ordered`: the patterns in question.
* `Search.Finds`: a search finds what an attempt finds, and remembers only what leads to nothing.
* `Ordered.find?_eq`: the first match is the one that an attempt finds.
-/

namespace CommandConsole.Pattern

variable {α : Type}

/-! ### Matching without a memory -/

/-- Up to so many rounds of a body, each of which reads something, and then what has to follow. -/
def attemptRounds (greedy : Bool) (body : (Cursor → Option α) → Cursor → Option α)
    (next : Cursor → Option α) : Nat → Cursor → Option α
  | 0, s => next s
  | n + 1, s =>
    let again (t : Cursor) : Option α :=
      if s.position < t.position then attemptRounds greedy body next n t else none
    if greedy then (body again s).or (next s) else (next s).or (body again s)

/-- Matches a pattern at a cursor, and then what has to follow. -/
def attempt : Pattern → (Cursor → Option α) → Cursor → Option α
  | empty, next, s => next s
  | one set, next, s =>
    match s.rest with
    | [] => none
    | c :: rest => if set.contains c then next (s.advance c rest) else none
  | anchor a, next, s => if a.holds s then next s else none
  | seq a b, next, s => a.attempt (b.attempt next) s
  | alt _ a b, next, s => (a.attempt next s).or (b.attempt next s)
  | many greedy _ a, next, s => attemptRounds greedy a.attempt next s.rest.length s
  | atLeastOne greedy _ a, next, s =>
    a.attempt (fun t => attemptRounds greedy a.attempt next t.rest.length t) s
  | group index a, next, s => a.attempt (fun t => next (t.capture index s)) s

/-- The choices of a pattern have marks from one number up to another, in the order in which they
come up, and only single characters are repeated. -/
inductive Ordered : Pattern → Nat → Nat → Prop
  | empty {n : Nat} : Ordered .empty n n
  | one {set : CharSet} {n : Nat} : Ordered (.one set) n n
  | anchor {a : Anchor} {n : Nat} : Ordered (.anchor a) n n
  | seq {a b : Pattern} {l m h : Nat} : Ordered a l m → Ordered b m h → Ordered (.seq a b) l h
  | alt {a b : Pattern} {l m h : Nat} : Ordered a (l + 1) m → Ordered b m h →
      Ordered (.alt l a b) l h
  | many {greedy : Bool} {set : CharSet} {n : Nat} : Ordered (.many greedy n (.one set)) n (n + 1)
  | atLeastOne {greedy : Bool} {set : CharSet} {n : Nat} :
      Ordered (.atLeastOne greedy n (.one set)) n (n + 1)
  | group {index : Nat} {a : Pattern} {l h : Nat} : Ordered a l h → Ordered (.group index a) l h

theorem Ordered.le {p : Pattern} {l h : Nat} (ho : Ordered p l h) : l ≤ h := by
  induction ho with
  | empty | one | anchor => exact Nat.le_refl _
  | seq _ _ iha ihb => exact Nat.le_trans iha ihb
  | alt _ _ iha ihb => omega
  | many | atLeastOne => exact Nat.le_succ _
  | group _ ih => exact ih

/-! ### Places -/

/-- A cursor without its captures. -/
def Cursor.place (s : Cursor) : Cursor := { s with captures := [] }

theorem Cursor.place_eq_iff {s t : Cursor} : s.place = t.place ↔
    s.before = t.before ∧ s.rest = t.rest ∧ s.position = t.position := by
  simp [place]

/-- The place with so many characters of a line in front of it. -/
def Cursor.ofPosition (line : List Char) (position : Nat) : Cursor where
  before := (line.take position).getLast?
  rest := line.drop position
  position

/-- The cursor stands at a place in a line. -/
def Cursor.On (line : List Char) (s : Cursor) : Prop := s.place = .ofPosition line s.position

theorem Cursor.On.advance {line rest : List Char} {s : Cursor} {c : Char} (h : s.On line)
    (hr : s.rest = c :: rest) : (s.advance c rest).On line := by
  have hdrop : line.drop s.position = c :: rest := by
    rw [← hr]
    exact (congrArg Cursor.rest h).symm
  have hlater : line.drop (s.position + 1) = rest := by
    rw [← List.drop_drop, hdrop, List.drop_one, List.tail_cons]
  have hfront : line.take (s.position + 1) = line.take s.position ++ [c] := by
    rw [List.take_add, hdrop]
    rfl
  unfold Cursor.On Cursor.ofPosition
  show (⟨some c, rest, s.position + 1, []⟩ : Cursor) =
    ⟨(line.take (s.position + 1)).getLast?, line.drop (s.position + 1), s.position + 1, []⟩
  rw [hlater, hfront, List.getLast?_concat]

/-- At the same place both find something or neither does, whatever has been captured. -/
def Alike (f g : Cursor → Option α) : Prop :=
  ∀ {s t : Cursor}, s.place = t.place → (f s = none ↔ g t = none)

theorem alike_rounds {greedy : Bool} {body body' : (Cursor → Option α) → Cursor → Option α}
    {f g : Cursor → Option α} (h : Alike f g)
    (hbody : ∀ {f g : Cursor → Option α}, Alike f g → Alike (body f) (body' g)) (n : Nat) :
    Alike (attemptRounds greedy body f n) (attemptRounds greedy body' g n) := by
  induction n with
  | zero => exact h
  | succ n ih =>
    intro s t hst
    obtain ⟨-, -, hposition⟩ := Cursor.place_eq_iff.mp hst
    have again : Alike
        (fun x => if s.position < x.position then attemptRounds greedy body f n x else none)
        (fun x => if t.position < x.position then attemptRounds greedy body' g n x else none) := by
      intro x y hxy
      obtain ⟨-, -, hlater⟩ := Cursor.place_eq_iff.mp hxy
      dsimp only
      rw [hposition, hlater]
      split
      · exact ih hxy
      · rfl
    have more := hbody again hst
    have ends := h hst
    unfold attemptRounds
    split
    · rw [Option.or_eq_none_iff, Option.or_eq_none_iff, more, ends]
    · rw [Option.or_eq_none_iff, Option.or_eq_none_iff, more, ends]

/-- Whether an attempt finds anything does not depend on what has been captured. -/
theorem alike_attempt (p : Pattern) {f g : Cursor → Option α} (h : Alike f g) :
    Alike (p.attempt f) (p.attempt g) := by
  induction p generalizing f g with
  | empty => exact h
  | one set =>
    intro s t hst
    obtain ⟨-, hrest, -⟩ := Cursor.place_eq_iff.mp hst
    unfold attempt
    rw [hrest]
    split
    · rfl
    · next c rest _ =>
      split
      · obtain ⟨-, -, hposition⟩ := Cursor.place_eq_iff.mp hst
        exact h (Cursor.place_eq_iff.mpr ⟨rfl, rfl, congrArg (· + 1) hposition⟩)
      · rfl
  | anchor a =>
    intro s t hst
    have hholds : a.holds s = a.holds t := by
      have hplaces : a.holds s.place = a.holds t.place := congrArg (a.holds ·) hst
      cases a <;> exact hplaces
    unfold attempt
    rw [hholds]
    split
    · exact h hst
    · rfl
  | seq a b iha ihb => exact iha (ihb h)
  | alt mark a b iha ihb =>
    intro s t hst
    unfold attempt
    rw [Option.or_eq_none_iff, Option.or_eq_none_iff, iha h hst, ihb h hst]
  | many greedy mark a ih =>
    intro s t hst
    obtain ⟨-, hrest, -⟩ := Cursor.place_eq_iff.mp hst
    unfold attempt
    rw [hrest]
    exact alike_rounds h ih t.rest.length hst
  | atLeastOne greedy mark a ih =>
    refine ih fun {s t} hst => ?_
    obtain ⟨-, hrest, -⟩ := Cursor.place_eq_iff.mp hst
    rw [hrest]
    exact alike_rounds h ih t.rest.length hst
  | group index a ih =>
    intro s t hst
    have later : Alike (fun x => f (x.capture index s)) (fun x => g (x.capture index t)) :=
      fun hxy => h hxy
    exact ih later hst

/-! ### What a search remembers -/

/-- A choice at a place comes up at another one or after it. -/
def Reaches (k x : Nat × Nat) : Prop := k.1 < x.1 ∨ k.1 = x.1 ∧ k.2 ≤ x.2

theorem reaches_later {mark position : Nat} {x : Nat × Nat} (h : Reaches (mark, position + 1) x) :
    Reaches (mark, position) x ∧ x ≠ (mark, position) := by
  obtain ⟨m, p⟩ := x
  unfold Reaches at h ⊢
  rw [Ne, Prod.mk.injEq]
  dsimp only at h ⊢
  omega

theorem reaches_zero {mark : Nat} {x : Nat × Nat} : Reaches (mark, 0) x ↔ mark ≤ x.1 := by
  unfold Reaches
  dsimp only
  omega

theorem reaches_of_lt {mark position : Nat} {x : Nat × Nat} (h : mark < x.1) :
    Reaches (mark, position) x := Or.inl h

theorem Reaches.le {mark position : Nat} {x : Nat × Nat} (h : Reaches (mark, position) x) :
    mark ≤ x.1 := by
  unfold Reaches at h
  dsimp only at h
  omega

namespace Search

/-- The search finds just this, if the choices still to come up are remembered only where they are
dead, and then the same holds of all that it adds to the memory. -/
def Finds (dead : Nat × Nat → Prop) (k : Nat × Nat) (f : Search α) (r : Option α) : Prop :=
  ∀ tried : Tried, (∀ x ∈ tried, Reaches k x → dead x) →
    (f tried).1 = r ∧ (r = none → ∀ x ∈ (f tried).2, x ∈ tried ∨ Reaches k x ∧ dead x)

variable {dead dead' : Nat × Nat → Prop} {k k' : Nat × Nat} {f g : Search α} {r q : Option α}

theorem finds_found (x : α) : Finds dead k (found x) (some x) :=
  fun _ _ => ⟨rfl, fun h => by cases h⟩

theorem finds_nothing : Finds dead k (nothing : Search α) none :=
  fun _ _ => ⟨rfl, fun _ _ hx => Or.inl hx⟩

/-- What comes up later comes up after an earlier choice, and only its own dead choices matter. -/
theorem Finds.weaken (h : Finds dead k f r) (hk : ∀ x, Reaches k x → Reaches k' x)
    (hdead : ∀ x, Reaches k x → (dead' x ↔ dead x)) : Finds dead' k' f r := by
  intro tried htried
  obtain ⟨hr, hadds⟩ := h tried fun x hx hkx => (hdead x hkx).mp (htried x hx (hk x hkx))
  refine ⟨hr, fun hnone x hx => ?_⟩
  rcases hadds hnone x hx with hx | ⟨hkx, hx⟩
  · exact Or.inl hx
  · exact Or.inr ⟨hk x hkx, (hdead x hkx).mpr hx⟩

theorem Finds.first (hf : Finds dead k f r) (hg : Finds dead k g q) :
    Finds dead k (first f g) (r.or q) := by
  intro tried htried
  obtain ⟨hr, hadds⟩ := hf tried htried
  unfold Search.first
  split
  · next x _ hfound =>
    rw [hfound] at hr
    subst hr
    exact ⟨rfl, fun h => by cases h⟩
  · next tried' hfound =>
    rw [hfound] at hr hadds
    subst hr
    have hadded := hadds rfl
    obtain ⟨hq, hadds'⟩ := hg tried' fun x hx hkx => by
      rcases hadded x hx with hx | ⟨-, hx⟩
      · exact htried x hx hkx
      · exact hx
    refine ⟨hq, fun hnone x hx => ?_⟩
    rcases hadds' hnone x hx with hx | hx
    · exact hadded x hx
    · exact Or.inr hx

/-- A choice that is dead if nothing is found need not be tried twice, if it does not come up again
while it is tried. -/
theorem Finds.once {mark position : Nat} (h : Finds dead k f r)
    (hk : ∀ x, Reaches k x → Reaches (mark, position) x ∧ x ≠ (mark, position))
    (hdead : dead (mark, position) ↔ r = none) :
    Finds dead (mark, position) (once mark position f) r := by
  have self : Reaches (mark, position) (mark, position) := Or.inr ⟨rfl, Nat.le_refl _⟩
  intro tried htried
  unfold Search.once
  split
  · next hmem =>
    have hnone := hdead.mp (htried _ (Std.HashSet.contains_iff_mem.mp hmem) self)
    exact ⟨hnone.symm, fun _ x hx => Or.inl hx⟩
  · obtain ⟨hr, hadds⟩ := h (tried.insert (mark, position)) fun x hx hkx => by
      obtain ⟨hlater, hne⟩ := hk x hkx
      rcases Std.HashSet.mem_insert.mp hx with heq | hx
      · exact absurd (beq_iff_eq.mp heq).symm hne
      · exact htried x hx hlater
    refine ⟨hr, fun hnone x hx => ?_⟩
    rcases hadds hnone x hx with hx | ⟨hkx, hx⟩
    · rcases Std.HashSet.mem_insert.mp hx with heq | hx
      · obtain rfl := beq_iff_eq.mp heq
        exact Or.inr ⟨self, hdead.mpr hnone⟩
      · exact Or.inl hx
    · exact Or.inr ⟨(hk x hkx).1, hx⟩

end Search

open Search

/-! ### Searches and attempts -/

section

variable {greedy : Bool} {mark : Nat} {set : CharSet} {line : List Char}
  {dead : Nat × Nat → Prop} {next : Cursor → Search α} {follow : Cursor → Option α}

/-- Reading one character. -/
theorem finds_one {k : Nat × Nat} {s : Cursor}
    (h : ∀ {c : Char} {rest : List Char}, s.rest = c :: rest →
      Finds dead k (next (s.advance c rest)) (follow (s.advance c rest))) :
    Finds dead k ((one set).run next s) ((one set).attempt follow s) := by
  unfold run attempt
  cases hr : s.rest with
  | nil => exact finds_nothing
  | cons c rest =>
    dsimp only
    split
    · exact h hr
    · exact finds_nothing

/-- A choice with a mark of its own is dead where an attempt finds nothing. -/
def deadAlso (line : List Char) (mark : Nat) (attempted : Cursor → Option α)
    (dead : Nat × Nat → Prop) (x : Nat × Nat) : Prop :=
  if x.1 = mark then attempted (.ofPosition line x.2) = none else dead x

theorem deadAlso_of_lt {attempted : Cursor → Option α} {x : Nat × Nat} (h : mark < x.1) :
    deadAlso line mark attempted dead x ↔ dead x := by
  unfold deadAlso
  rw [if_neg (Nat.ne_of_gt h)]

theorem deadAlso_iff {attempted attempted' : Cursor → Option α} (h : Alike attempted attempted')
    {s : Cursor} (hs : s.On line) :
    deadAlso line mark attempted dead (mark, s.position) ↔ attempted' s = none := by
  unfold deadAlso
  rw [if_pos rfl]
  exact h hs.symm

/-- **Repetitions**: each round comes up at a later place than the one before. -/
theorem finds_rounds
    (hdead : ∀ s : Cursor, s.On line → (dead (mark, s.position) ↔
      attemptRounds greedy (one set).attempt follow s.rest.length s = none))
    (hnext : ∀ s : Cursor, s.On line → Finds dead (mark + 1, 0) (next s) (follow s))
    {s : Cursor} (hs : s.On line) : Finds dead (mark, s.position)
      (rounds greedy mark (one set).run next s.rest.length s)
      (attemptRounds greedy (one set).attempt follow s.rest.length s) := by
  have ends {s : Cursor} (hs : s.On line) :
      Finds dead (mark, s.position + 1) (next s) (follow s) :=
    (hnext s hs).weaken (fun x hx => reaches_of_lt hx.le) fun _ _ => Iff.rfl
  induction hn : s.rest.length generalizing s with
  | zero =>
    have hd := hdead s hs
    rw [hn] at hd
    exact (ends hs).once (fun x hx => reaches_later hx) hd
  | succ n ih =>
    have again : Finds dead (mark, s.position + 1)
        ((one set).run (fun t => if s.position < t.position then
          rounds greedy mark (one set).run next n t else .nothing) s)
        ((one set).attempt (fun t => if s.position < t.position then
          attemptRounds greedy (one set).attempt follow n t else none) s) := by
      refine finds_one fun {c rest} hr => ?_
      have hlt : s.position < (s.advance c rest).position := Nat.lt_succ_self s.position
      rw [if_pos hlt, if_pos hlt]
      refine ih (hs.advance hr) ?_
      rw [hr] at hn
      exact Nat.succ.inj hn
    have hd := hdead s hs
    rw [hn] at hd
    refine Finds.once ?_ (fun x hx => reaches_later hx) hd
    cases greedy with
    | true => exact again.first (ends hs)
    | false => exact (ends hs).first again

/-- The rounds of a repetition are one choice, dead where no number of them leads on. -/
theorem finds_many {follow' : Cursor → Option α} (hff : Alike follow follow')
    (hnext : ∀ s : Cursor, s.On line → Finds dead (mark + 1, 0) (next s) (follow' s))
    {s : Cursor} (hs : s.On line) :
    Finds (deadAlso line mark ((many greedy mark (one set)).attempt follow) dead) (mark, 0)
      ((many greedy mark (one set)).run next s)
      ((many greedy mark (one set)).attempt follow' s) := by
  have rounds : Finds (deadAlso line mark ((many greedy mark (one set)).attempt follow) dead)
      (mark, s.position) ((many greedy mark (one set)).run next s)
      ((many greedy mark (one set)).attempt follow' s) :=
    finds_rounds (fun s hs => deadAlso_iff (alike_attempt (many greedy mark (one set)) hff) hs)
      (fun s hs => (hnext s hs).weaken (fun _ hx => hx) fun x hx => deadAlso_of_lt hx.le) hs
  exact rounds.weaken (fun x hx => reaches_zero.mpr hx.le) fun _ _ => Iff.rfl

end

/-- **Searches**: at every choice of a pattern there is something to find or there is not, and a
search finds what an attempt finds. -/
theorem Ordered.exists_dead {p : Pattern} {l h : Nat} (ho : Ordered p l h) (line : List Char)
    {follow : Cursor → Option α} (hf : Alike follow follow) (dead : Nat × Nat → Prop) :
    ∃ dead' : Nat × Nat → Prop, (∀ x, h ≤ x.1 → (dead' x ↔ dead x)) ∧
      ∀ {next : Cursor → Search α} {follow' : Cursor → Option α}, Alike follow follow' →
        (∀ s : Cursor, s.On line → Finds dead (h, 0) (next s) (follow' s)) →
        ∀ s : Cursor, s.On line → Finds dead' (l, 0) (p.run next s) (p.attempt follow' s) := by
  -- from the end of the pattern to its start, each choice adds the places where it is dead itself
  induction ho generalizing follow dead with
  | empty => exact ⟨dead, fun _ _ => Iff.rfl, fun _ hnext => hnext⟩
  | one =>
    exact ⟨dead, fun _ _ => Iff.rfl,
      fun _ hnext s hs => finds_one fun hr => hnext _ (hs.advance hr)⟩
  | @anchor a =>
    refine ⟨dead, fun _ _ => Iff.rfl, fun _ hnext s hs => ?_⟩
    unfold run attempt
    split
    · exact hnext s hs
    · exact finds_nothing
  | @seq a b l m h hoa hob iha ihb =>
    obtain ⟨deadb, hdeadb, hb⟩ := ihb hf dead
    obtain ⟨deada, hdeada, ha⟩ := iha (alike_attempt b hf) deadb
    refine ⟨deada, fun x hx => ?_, fun hff hnext => ?_⟩
    · exact (hdeada x (Nat.le_trans hob.le hx)).trans (hdeadb x hx)
    · exact ha (alike_attempt b hff) (hb hff hnext)
  | @alt a b l m h hoa hob iha ihb =>
    obtain ⟨deadb, hdeadb, hb⟩ := ihb hf dead
    obtain ⟨deada, hdeada, ha⟩ := iha hf deadb
    have hlm : l < m := hoa.le
    have hmh : m ≤ h := hob.le
    let choice : Pattern := .alt l a b
    refine ⟨deadAlso line l (choice.attempt follow) deada, fun x hx => ?_,
      fun {next follow'} hff hnext s hs => ?_⟩
    · rw [deadAlso_of_lt (Nat.lt_of_lt_of_le hlm (Nat.le_trans hmh hx)),
        hdeada x (Nat.le_trans hmh hx), hdeadb x hx]
    · have front := ha hff (fun t ht => (hnext t ht).weaken
        (fun x hx => reaches_zero.mpr (Nat.le_trans hmh hx.le)) fun x hx => hdeadb x hx.le) s hs
      have first : Finds (deadAlso line l (choice.attempt follow) deada) (l, s.position + 1)
          (a.run next s) (a.attempt follow' s) :=
        front.weaken (fun x hx => reaches_of_lt hx.le) fun x hx => deadAlso_of_lt hx.le
      have second : Finds (deadAlso line l (choice.attempt follow) deada) (l, s.position + 1)
          (b.run next s) (b.attempt follow' s) :=
        (hb hff hnext s hs).weaken (fun x hx => reaches_of_lt (Nat.lt_of_lt_of_le hlm hx.le))
          fun x hx => (deadAlso_of_lt (Nat.lt_of_lt_of_le hlm hx.le)).trans (hdeada x hx.le)
      have both := (first.first second).once (fun x hx => reaches_later hx)
        (deadAlso_iff (alike_attempt choice hff) hs)
      exact both.weaken (fun x hx => reaches_zero.mpr hx.le) fun _ _ => Iff.rfl
  | @many greedy set n =>
    exact ⟨deadAlso line n ((Pattern.many greedy n (.one set)).attempt follow) dead,
      fun x hx => deadAlso_of_lt hx, fun hff hnext s hs => finds_many hff hnext hs⟩
  | @atLeastOne greedy set n =>
    exact ⟨deadAlso line n ((Pattern.many greedy n (.one set)).attempt follow) dead,
      fun x hx => deadAlso_of_lt hx,
      fun hff hnext s hs => finds_one fun hr => finds_many hff hnext (hs.advance hr)⟩
  | @group index a l h hoa ih =>
    -- what is dead does not depend on where the group starts, as that is only captured
    obtain ⟨dead', hdead', ha⟩ := ih hf dead
    refine ⟨dead', hdead', fun {next follow'} hff hnext s hs => ?_⟩
    have hlater : Alike follow fun t => follow' (t.capture index s) := fun hst => hff hst
    exact ha hlater (fun t ht => hnext _ ht) s hs

/-- **The first match** is the first one that an attempt finds. -/
theorem Ordered.find?_eq {p : Pattern} {l h : Nat} (ho : Ordered p l h)
    (hstart : p.startsText = true) (line : String) :
    p.find? line = p.attempt some { rest := line.toList } := by
  have hsome : Alike (some : Cursor → Option Cursor) some := fun {s t} _ => by simp
  obtain ⟨dead, -, hfinds⟩ := ho.exists_dead line.toList hsome fun _ => False
  obtain ⟨hfound, -⟩ := hfinds hsome (fun s _ => finds_found s) { rest := line.toList } rfl ∅
    fun x hx => absurd hx Std.HashSet.not_mem_empty
  unfold find?
  rw [if_pos hstart, hfound]

end CommandConsole.Pattern

import CommandConsole.Proofs.Backtracking

/-!
# CommandConsole.Proofs.Capturing — what the groups of a match capture

A match is put together from the matches of the parts of the pattern. Some of these are groups: each
time one is passed it takes a part of the line, the innermost groups first. The value of a group is
the last part that it takes. A group that takes none, as it stands in a branch or a round that the
match does not pass, has the empty text for a value. So every match gives the same number of values.

* `Part`, `Takes`: a match with the parts that its groups take.
* `run_takes`: what a search captures before it goes on.
* `Holds`: the value of a group, read off the parts.
* `takes_of_captures?`: the values that a line gives.
-/

namespace CommandConsole.Pattern

/-! ### Parts of a line -/

/-- A group takes the characters of a line from one place up to another. -/
structure Part where
  index : Nat
  start : Nat
  stop : Nat
deriving DecidableEq, Repr

/-- The characters that the group takes. -/
def Part.text (line : List Char) (part : Part) : String :=
  String.ofList ((line.drop part.start).take (part.stop - part.start))

/-- The part as a search keeps it. -/
def Part.capture (line : List Char) (part : Part) : Capture :=
  ⟨part.index, line.drop part.start, part.stop - part.start⟩

/-- Any number of matches side by side, with the parts of all of them. -/
inductive InRounds (R : Nat → Nat → List Part → Prop) : Nat → Nat → List Part → Prop
  | none (i : Nat) : InRounds R i i []
  | more {i j k : Nat} {parts later : List Part} : R i j parts → InRounds R j k later →
      InRounds R i k (parts ++ later)

/-- The pattern matches the characters of the line from one place up to another, and its groups take
these parts of it, in the order in which they end. -/
def Takes (line : List Char) : Pattern → Nat → Nat → List Part → Prop
  | empty, i, j, parts => j = i ∧ parts = []
  | one set, i, j, parts =>
    ((∃ c, (line.drop i).head? = some c ∧ set.contains c = true) ∧ j = i + 1) ∧ parts = []
  | anchor a, i, j, parts => (a.holds (.ofPosition line i) = true ∧ j = i) ∧ parts = []
  | seq a b, i, k, parts => ∃ j front behind,
    a.Takes line i j front ∧ b.Takes line j k behind ∧ parts = front ++ behind
  | alt _ a b, i, j, parts => a.Takes line i j parts ∨ b.Takes line i j parts
  | many _ _ a, i, j, parts => InRounds (a.Takes line) i j parts
  | atLeastOne _ _ a, i, k, parts => ∃ j front behind,
    a.Takes line i j front ∧ InRounds (a.Takes line) j k behind ∧ parts = front ++ behind
  | group index a, i, j, parts => ∃ inner, a.Takes line i j inner ∧ parts = inner ++ [⟨index, i, j⟩]

/-- The value of a group: the last part that it takes, or the empty text if it takes none. -/
inductive Holds (line : List Char) (index : Nat) : List Part → String → Prop
  | last {before after : List Part} {part : Part} : part.index = index →
      (∀ later ∈ after, later.index ≠ index) →
      Holds line index (before ++ part :: after) (part.text line)
  | absent {parts : List Part} : (∀ part ∈ parts, part.index ≠ index) → Holds line index parts ""

variable {line : List Char} {p : Pattern} {i j : Nat} {parts : List Part}

/-- The parts lie between the ends of the match, and the match between those of the line. -/
structure Within (line : List Char) (i j : Nat) (parts : List Part) : Prop where
  le : i ≤ j
  le_length : j ≤ line.length
  parts : ∀ part ∈ parts, i ≤ part.start ∧ part.start ≤ part.stop ∧ part.stop ≤ j

theorem Within.nil (h : i ≤ line.length) : Within line i i [] :=
  ⟨Nat.le_refl i, h, List.forall_mem_nil _⟩

theorem Within.append {k : Nat} {later : List Part} (h : Within line i j parts)
    (h' : Within line j k later) : Within line i k (parts ++ later) where
  le := Nat.le_trans h.le h'.le
  le_length := h'.le_length
  parts := by
    have hle := h.le
    have hle' := h'.le
    refine List.forall_mem_append.mpr ⟨fun part hm => ?_, fun part hm => ?_⟩
    · have hpart := h.parts part hm
      omega
    · have hpart := h'.parts part hm
      omega

namespace InRounds

variable {R : Nat → Nat → List Part → Prop}

theorem within (h : InRounds R i j parts) (hR : ∀ i j parts, R i j parts → i ≤ line.length →
    Within line i j parts) (hi : i ≤ line.length) : Within line i j parts := by
  induction h with
  | none => exact .nil hi
  | more hfirst _ ih =>
    have hfirst := hR _ _ _ hfirst hi
    exact hfirst.append (ih hfirst.le_length)

theorem forall_mem {P : Part → Prop} (h : InRounds R i j parts)
    (hR : ∀ i j parts, R i j parts → ∀ part ∈ parts, P part) : ∀ part ∈ parts, P part := by
  induction h with
  | none => exact List.forall_mem_nil _
  | more hfirst _ hlater => exact List.forall_mem_append.mpr ⟨hR _ _ _ hfirst, hlater⟩

end InRounds

/-- Groups take parts of the line inside the match. -/
theorem Takes.within (h : p.Takes line i j parts) (hi : i ≤ line.length) :
    Within line i j parts := by
  induction p generalizing i j parts with
  | empty =>
    obtain ⟨rfl, rfl⟩ := h
    exact .nil hi
  | one set =>
    obtain ⟨⟨⟨c, hc, -⟩, rfl⟩, rfl⟩ := h
    rw [List.head?_drop] at hc
    obtain ⟨hlt, -⟩ := List.getElem?_eq_some_iff.mp hc
    exact ⟨Nat.le_succ i, hlt, List.forall_mem_nil _⟩
  | anchor a =>
    obtain ⟨⟨-, rfl⟩, rfl⟩ := h
    exact .nil hi
  | seq a b iha ihb =>
    obtain ⟨k, front, behind, ha, hb, rfl⟩ := h
    have hfront := iha ha hi
    exact hfront.append (ihb hb hfront.le_length)
  | alt mark a b iha ihb => exact h.elim (fun ha => iha ha hi) fun hb => ihb hb hi
  | many greedy mark a ih => exact InRounds.within h (fun _ _ _ => ih) hi
  | atLeastOne greedy mark a ih =>
    obtain ⟨k, front, behind, hfirst, hlater, rfl⟩ := h
    have hfront := ih hfirst hi
    exact hfront.append (hlater.within (fun _ _ _ => ih) hfront.le_length)
  | group index a ih =>
    obtain ⟨inner, ha, rfl⟩ := h
    have hinner := ih ha hi
    refine ⟨hinner.le, hinner.le_length, List.forall_mem_append.mpr ⟨hinner.parts, ?_⟩⟩
    exact List.forall_mem_singleton.mpr ⟨Nat.le_refl i, hinner.le, Nat.le_refl j⟩

/-- Only groups that are counted take parts. -/
theorem Takes.index_le (h : p.Takes line i j parts) : ∀ part ∈ parts, part.index ≤ p.arity := by
  induction p generalizing i j parts with
  | empty | one | anchor =>
    obtain ⟨-, rfl⟩ := h
    exact List.forall_mem_nil _
  | seq a b iha ihb =>
    obtain ⟨_, front, behind, ha, hb, rfl⟩ := h
    exact List.forall_mem_append.mpr
      ⟨fun part hm => Nat.le_trans (iha ha part hm) (Nat.le_max_left _ _),
        fun part hm => Nat.le_trans (ihb hb part hm) (Nat.le_max_right _ _)⟩
  | alt mark a b iha ihb =>
    rcases h with ha | hb
    · exact fun part hm => Nat.le_trans (iha ha part hm) (Nat.le_max_left _ _)
    · exact fun part hm => Nat.le_trans (ihb hb part hm) (Nat.le_max_right _ _)
  | many greedy mark a ih => exact InRounds.forall_mem h fun _ _ _ => ih
  | atLeastOne greedy mark a ih =>
    obtain ⟨_, front, behind, hfirst, hlater, rfl⟩ := h
    exact List.forall_mem_append.mpr ⟨ih hfirst, hlater.forall_mem fun _ _ _ => ih⟩
  | group index a ih =>
    obtain ⟨inner, ha, rfl⟩ := h
    exact List.forall_mem_append.mpr
      ⟨fun part hm => Nat.le_trans (ih ha part hm) (Nat.le_max_right _ _),
        List.forall_mem_singleton.mpr (Nat.le_max_left _ _)⟩

/-! ### What a search captures -/

section Search

variable {α : Type} {x : α}

theorem Anchor.holds_iff {s : Cursor} (hs : s.On line) (a : Anchor) :
    a.holds s = a.holds (.ofPosition line s.position) := by
  have hplace : a.holds s.place = a.holds s := by cases a <;> rfl
  rw [← hplace]
  exact congrArg (a.holds ·) hs

theorem Cursor.On.head?_drop {s : Cursor} {c : Char} {rest : List Char} (hs : s.On line)
    (hr : s.rest = c :: rest) : (line.drop s.position).head? = some c := by
  have hdrop : line.drop s.position = c :: rest := by
    rw [← hr]
    exact (congrArg Cursor.rest hs).symm
  rw [hdrop]
  rfl

theorem of_once {mark position : Nat} {a : Search α} {tried : Tried}
    (h : (Search.once mark position a tried).1 = some x) : ∃ tried', (a tried').1 = some x := by
  unfold Search.once at h
  split at h
  · cases h
  · exact ⟨_, h⟩

theorem of_first {a b : Search α} {tried : Tried} (h : (Search.first a b tried).1 = some x) :
    (∃ tried', (a tried').1 = some x) ∨ ∃ tried', (b tried').1 = some x := by
  unfold Search.first at h
  split at h
  · next hfound =>
    refine Or.inl ⟨tried, ?_⟩
    rw [hfound]
    exact h
  · exact Or.inr ⟨_, h⟩

/-- A search has gone on from some place, and has captured parts on the way there. -/
def TakesOn (line : List Char) (R : Nat → Nat → List Part → Prop) (next : Cursor → Search α)
    (s : Cursor) (x : α) : Prop :=
  ∃ t tried parts, t.On line ∧ R s.position t.position parts ∧
    t.captures = (parts.map (·.capture line)).reverse ++ s.captures ∧ (next t tried).1 = some x

/-- What a search captures behind a place to which it has gone on. -/
theorem captures_append {s t u : Cursor} {front behind : List Part}
    (ht : t.captures = (front.map (·.capture line)).reverse ++ s.captures)
    (hu : u.captures = (behind.map (·.capture line)).reverse ++ t.captures) :
    u.captures = ((front ++ behind).map (·.capture line)).reverse ++ s.captures := by
  rw [hu, ht, List.map_append, List.reverse_append, List.append_assoc]

/-- Rounds of a body that captures what it should capture parts in turn. -/
theorem rounds_takes {R : Nat → Nat → List Part → Prop}
    {body : (Cursor → Search α) → Cursor → Search α}
    (hbody : ∀ (next : Cursor → Search α) (s : Cursor) (tried : Tried), s.On line →
      (body next s tried).1 = some x → TakesOn line R next s x)
    {greedy : Bool} {mark : Nat} {next : Cursor → Search α} {most : Nat} {s : Cursor}
    {tried : Tried} (hs : s.On line)
    (h : (rounds greedy mark body next most s tried).1 = some x) :
    TakesOn line (InRounds R) next s x := by
  have ends {s : Cursor} {tried : Tried} (hs : s.On line) (h : (next s tried).1 = some x) :
      TakesOn line (InRounds R) next s x := ⟨s, tried, [], hs, .none _, rfl, h⟩
  induction most generalizing s tried with
  | zero =>
    unfold rounds at h
    obtain ⟨tried', h⟩ := of_once h
    exact ends hs h
  | succ most ih =>
    -- a round that reads something is followed by fewer rounds
    have again {tried : Tried} (h : (body (fun t => if s.position < t.position then
          rounds greedy mark body next most t else .nothing) s tried).1 = some x) :
        TakesOn line (InRounds R) next s x := by
      obtain ⟨t, tried', parts, ht, hR, hcaptures, h⟩ := hbody _ s tried hs h
      dsimp only at h
      split at h
      · obtain ⟨u, tried'', later, hu, hlater, hcaptures', h⟩ := ih ht h
        exact ⟨u, tried'', parts ++ later, hu, .more hR hlater,
          captures_append hcaptures hcaptures', h⟩
      · cases h
    unfold rounds at h
    obtain ⟨tried', h⟩ := of_once h
    split at h
    · rcases of_first h with ⟨_, h⟩ | ⟨_, h⟩
      · exact again h
      · exact ends hs h
    · rcases of_first h with ⟨_, h⟩ | ⟨_, h⟩
      · exact ends hs h
      · exact again h

/-- **Searches**: before it goes on, a search has captured the parts that the groups of a match
take. -/
theorem run_takes (p : Pattern) {next : Cursor → Search α} {s : Cursor} {tried : Tried}
    (hs : s.On line) (h : (p.run next s tried).1 = some x) :
    TakesOn line (p.Takes line) next s x := by
  induction p generalizing next s tried with
  | empty => exact ⟨s, tried, [], hs, ⟨rfl, rfl⟩, rfl, h⟩
  | one set =>
    unfold run at h
    cases hr : s.rest with
    | nil =>
      rw [hr] at h
      cases h
    | cons c rest =>
      rw [hr] at h
      dsimp only at h
      split at h
      · next hc =>
        exact ⟨_, tried, [], hs.advance hr, ⟨⟨⟨c, hs.head?_drop hr, hc⟩, rfl⟩, rfl⟩, rfl, h⟩
      · cases h
  | anchor a =>
    unfold run at h
    split at h
    · next ha =>
      rw [a.holds_iff hs] at ha
      exact ⟨s, tried, [], hs, ⟨⟨ha, rfl⟩, rfl⟩, rfl, h⟩
    · cases h
  | seq a b iha ihb =>
    obtain ⟨t, tried', front, ht, ha, hcaptures, h⟩ := iha hs h
    obtain ⟨u, tried'', behind, hu, hb, hcaptures', h⟩ := ihb ht h
    exact ⟨u, tried'', front ++ behind, hu, ⟨t.position, front, behind, ha, hb, rfl⟩,
      captures_append hcaptures hcaptures', h⟩
  | alt mark a b iha ihb =>
    unfold run at h
    obtain ⟨tried', h⟩ := of_once h
    rcases of_first h with ⟨_, h⟩ | ⟨_, h⟩
    · obtain ⟨t, tried'', parts, ht, ha, hcaptures, h⟩ := iha hs h
      exact ⟨t, tried'', parts, ht, Or.inl ha, hcaptures, h⟩
    · obtain ⟨t, tried'', parts, ht, hb, hcaptures, h⟩ := ihb hs h
      exact ⟨t, tried'', parts, ht, Or.inr hb, hcaptures, h⟩
  | many greedy mark a ih => exact rounds_takes (fun _ _ _ hs h => ih hs h) hs h
  | atLeastOne greedy mark a ih =>
    obtain ⟨t, tried', front, ht, ha, hcaptures, h⟩ := ih hs h
    obtain ⟨u, tried'', behind, hu, hrounds, hcaptures', h⟩ :=
      rounds_takes (fun _ _ _ hs h => ih hs h) ht h
    exact ⟨u, tried'', front ++ behind, hu, ⟨t.position, front, behind, ha, hrounds, rfl⟩,
      captures_append hcaptures hcaptures', h⟩
  | group index a ih =>
    obtain ⟨t, tried', inner, ht, ha, hcaptures, h⟩ := ih hs h
    have hstart : s.rest = line.drop s.position := congrArg Cursor.rest hs
    refine ⟨t.capture index s, tried', inner ++ [⟨index, s.position, t.position⟩], ht,
      ⟨inner, ha, rfl⟩, ?_, h⟩
    refine captures_append hcaptures ?_
    show (⟨index, s.rest, t.position - s.position⟩ :: t.captures : List Capture) = _
    rw [hstart]
    rfl

end Search

/-- A search from some place on finds a match with the parts that it has captured. -/
theorem search_takes (p : Pattern) {before : Option Char} {position : Nat} {cs : List Char}
    {tried : Tried} {u : Cursor} (hs : Cursor.On line { before, rest := cs, position })
    (hposition : position ≤ line.length)
    (h : (p.search before position cs tried).1 = some u) : ∃ i j parts, i ≤ line.length ∧
      p.Takes line i j parts ∧ u.captures = (parts.map (·.capture line)).reverse := by
  have here {before : Option Char} {position : Nat} {cs : List Char} {tried : Tried}
      (hs : Cursor.On line { before, rest := cs, position }) (hposition : position ≤ line.length)
      (h : (p.run .found { before, rest := cs, position } tried).1 = some u) :
      ∃ i j parts, i ≤ line.length ∧ p.Takes line i j parts ∧
        u.captures = (parts.map (·.capture line)).reverse := by
    obtain ⟨t, _, parts, -, htakes, hcaptures, ht⟩ := run_takes p hs h
    obtain rfl : t = u := Option.some.inj ht
    exact ⟨_, _, parts, hposition, htakes, by rw [hcaptures, List.append_nil]⟩
  induction cs generalizing before position tried with
  | nil => exact here hs hposition h
  | cons c cs ih =>
    unfold search at h
    rcases of_first h with ⟨_, h⟩ | ⟨_, h⟩
    · exact here hs hposition h
    · have hnext : (line.drop position).head? = some c := hs.head?_drop rfl
      rw [List.head?_drop] at hnext
      obtain ⟨hlt, -⟩ := List.getElem?_eq_some_iff.mp hnext
      exact ih (hs.advance rfl) hlt h

/-! ### Values -/

theorem holds_captured {u : Cursor} (hu : u.captures = (parts.map (·.capture line)).reverse)
    (index : Nat) : Holds line index parts (u.captured index) := by
  unfold Cursor.captured
  have hindex : (fun c : Capture => c.index == index) ∘ Part.capture line =
      (fun part => part.index == index) := rfl
  rw [hu, ← List.map_reverse, List.find?_map, hindex]
  cases hfind : parts.reverse.find? (·.index == index) with
  | none =>
    refine .absent fun part hm => ?_
    have hnot := List.find?_eq_none.mp hfind part (List.mem_reverse.mpr hm)
    simpa using hnot
  | some part =>
    obtain ⟨hindex, after, before, hparts, hafter⟩ := List.find?_eq_some_iff_append.mp hfind
    obtain rfl : parts = before.reverse ++ part :: after.reverse := by
      rw [← List.reverse_reverse parts, hparts]
      simp
    exact .last (by simpa using hindex) fun later hm => by
      simpa using hafter later (List.mem_reverse.mp hm)

/-- **Values**: a line that gives values has a match, and there is a value for each group that is
counted, the one that it has by the parts that the groups take. -/
theorem takes_of_captures? {line : String} {values : List String}
    (h : p.captures? line = some values) : values.length = p.arity ∧
      ∃ i j parts, p.Takes line.toList i j parts ∧ Within line.toList i j parts ∧
        (∀ part ∈ parts, part.index ≤ values.length) ∧
        ∀ index value, values[index]? = some value →
          Holds line.toList (index + 1) parts value := by
  have hlength := length_of_captures? h
  obtain ⟨u, hu, rfl⟩ := Option.map_eq_some_iff.mp h
  rw [find?_eq_search] at hu
  have hstart : Cursor.On line.toList { rest := line.toList } := rfl
  obtain ⟨i, j, parts, hi, htakes, hcaptures⟩ := search_takes p hstart (Nat.zero_le _) hu
  refine ⟨hlength, i, j, parts, htakes, htakes.within hi, ?_, fun index value hvalue => ?_⟩
  · rw [hlength]
    exact htakes.index_le
  · obtain ⟨hlt, rfl⟩ := List.getElem?_eq_some_iff.mp hvalue
    rw [List.getElem_map, List.getElem_range]
    exact holds_captured hcaptures (index + 1)

end CommandConsole.Pattern

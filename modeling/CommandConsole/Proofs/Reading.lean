import CommandConsole.Template

/-!
# CommandConsole.Proofs.Reading — the values that steps of a template read

The run of a step is tried from its longest end to its shortest, until the rest of the line can be
read. So one step reads the longest value that lets the rest be read. For steps in a row that is so
only under a condition: a longer run of an earlier step must never leave less for both.

* `Template.ReadsLongest`: what steps read, for every template that follows them.
* `Template.ReadsLongest.one`, `Template.ReadsLongest.many`: single steps.
* `Template.ReadsLongest.append`: steps in a row.
-/

namespace CommandConsole.Template

/-- Puts characters in front of the first text. -/
def pushAll (value : List Char) (texts : List (List Char)) : List (List Char) :=
  value.foldr push texts

theorem pushAll_append (front back : List Char) (texts : List (List Char)) :
    pushAll (front ++ back) texts = pushAll front (pushAll back texts) := List.foldr_append

theorem pushAll_cons (value text : List Char) (texts : List (List Char)) :
    pushAll value (text :: texts) = (value ++ text) :: texts := by
  induction value with
  | nil => rfl
  | cons c value ih =>
    show push c (pushAll value (text :: texts)) = _
    rw [ih]
    rfl

/-- Whatever template follows, the steps read a value with the property, the longest one that lets
the rest of the line be read, and they read one if there is any. -/
structure ReadsLongest (steps : Template) (P : List Char → Prop) : Prop where
  sound : ∀ {t : Template} {cs : List Char} {texts : List (List Char)},
    split? (steps ++ t) cs = some texts → ∃ value rest texts', cs = value ++ rest ∧ P value ∧
      split? t rest = some texts' ∧ texts = pushAll value texts' ∧
      ∀ other rest', cs = other ++ rest' → P other → (split? t rest').isSome →
        other.length ≤ value.length
  complete : ∀ {t : Template} {value rest : List Char},
    P value → (split? t rest).isSome → (split? (steps ++ t) (value ++ rest)).isSome

namespace ReadsLongest

variable {steps steps' : Template} {P Q : List Char → Prop}

theorem congr (h : ReadsLongest steps P) (hPQ : ∀ value, P value ↔ Q value) :
    ReadsLongest steps Q := by
  obtain rfl : P = Q := funext fun value => propext (hPQ value)
  exact h

/-! ### Single steps -/

theorem nil : ReadsLongest [] (· = []) where
  sound := by
    intro t cs texts h
    refine ⟨[], cs, texts, rfl, rfl, h, rfl, ?_⟩
    rintro _ _ _ rfl _
    exact Nat.le_refl 0
  complete := by
    rintro t _ rest rfl h
    exact h

theorem one (set : CharSet) :
    ReadsLongest [.one set] (fun value => ∃ c, set.contains c = true ∧ value = [c]) where
  sound := by
    intro t cs texts h
    cases cs with
    | nil => simp [split?] at h
    | cons c cs =>
      rw [List.singleton_append, split?] at h
      split at h
      · next hc =>
        obtain ⟨texts', hrest, rfl⟩ := Option.map_eq_some_iff.mp h
        refine ⟨[c], cs, texts', rfl, ⟨c, hc, rfl⟩, hrest, rfl, ?_⟩
        rintro _ _ _ ⟨_, _, rfl⟩ _
        exact Nat.le_refl 1
      · cases h
  complete := by
    rintro t _ rest ⟨c, hc, rfl⟩ h
    show (split? (.one set :: t) (c :: rest)).isSome = true
    rw [split?, if_pos hc, Option.isSome_map]
    exact h

/-- A run can be read if what follows it can. -/
theorem isSome_many {set : CharSet} {t : Template} {value rest : List Char}
    (hv : ∀ c ∈ value, set.contains c = true) (h : (split? t rest).isSome) :
    (split? (.many set :: t) (value ++ rest)).isSome := by
  induction value with
  | nil =>
    cases rest with
    | nil =>
      rw [List.nil_append, split?]
      exact h
    | cons c rest =>
      rw [List.nil_append, split?, Option.isSome_or, h, Bool.or_true]
  | cons c value ih =>
    obtain ⟨hc, hv⟩ := List.forall_mem_cons.mp hv
    rw [List.cons_append, split?, if_pos hc, Option.isSome_or, Option.isSome_map, ih hv,
      Bool.true_or]

theorem many (set : CharSet) :
    ReadsLongest [.many set] (fun value => ∀ c ∈ value, set.contains c = true) where
  complete := isSome_many
  sound := by
    intro t cs texts h
    induction cs generalizing texts with
    | nil =>
      rw [List.singleton_append, split?] at h
      refine ⟨[], [], texts, rfl, by simp, h, rfl, fun other rest' hcs _ _ => ?_⟩
      obtain ⟨rfl, -⟩ := List.append_eq_nil_iff.mp hcs.symm
      exact Nat.le_refl 0
    | cons c cs ih =>
      rw [List.singleton_append, split?] at h
      rcases Option.or_eq_some_iff.mp h with h | ⟨hnone, h⟩
      · -- the run goes on
        split at h
        · next hc =>
          obtain ⟨texts', hlater, rfl⟩ := Option.map_eq_some_iff.mp h
          obtain ⟨value, rest, texts'', rfl, hv, hrest, rfl, hmax⟩ := ih hlater
          refine ⟨c :: value, rest, texts'', rfl, List.forall_mem_cons.mpr ⟨hc, hv⟩, hrest, rfl,
            fun other rest' hcs hother hsome => ?_⟩
          cases other with
          | nil => exact Nat.zero_le _
          | cons d other =>
            obtain ⟨-, hcs⟩ := List.cons.inj hcs
            exact Nat.succ_le_succ
              (hmax other rest' hcs (List.forall_mem_cons.mp hother).2 hsome)
        · cases h
      · -- the run ends, as nothing can be read if it goes on
        refine ⟨[], c :: cs, texts, rfl, by simp, h, rfl, fun other rest' hcs hother hsome => ?_⟩
        cases other with
        | nil => exact Nat.le_refl 0
        | cons d other =>
          obtain ⟨rfl, htail⟩ : c = d ∧ cs = other ++ rest' := List.cons.inj hcs
          obtain ⟨hc, hother⟩ := List.forall_mem_cons.mp hother
          rw [if_pos hc, Option.map_eq_none_iff, htail] at hnone
          have hgoes := isSome_many hother hsome
          rw [hnone] at hgoes
          cases hgoes

/-! ### Steps in a row -/

/-- Steps in a row read the longest value if this holds: where an earlier run could be longer, a
value of both that is read with a shorter one is a run of the earlier steps alone. -/
theorem append (h : ReadsLongest steps P) (h' : ReadsLongest steps' Q)
    (hshift : ∀ {front rest other value rest' : List Char}, P front → P other → Q value →
      front ++ rest = other ++ (value ++ rest') → other.length < front.length →
      P (other ++ value) ∧ Q []) :
    ReadsLongest (steps ++ steps') (fun value => ∃ front back, value = front ++ back ∧
      P front ∧ Q back) where
  sound := by
    intro t cs texts hs
    rw [List.append_assoc] at hs
    obtain ⟨front, rest, texts', rfl, hfront, hrest, rfl, hmax⟩ := h.sound hs
    obtain ⟨back, rest', texts'', rfl, hback, hrest', rfl, hmax'⟩ := h'.sound hrest
    refine ⟨front ++ back, rest', texts'', (List.append_assoc front back rest').symm,
      ⟨front, back, rfl, hfront, hback⟩, hrest', (pushAll_append front back texts'').symm, ?_⟩
    rintro _ rest'' hcs ⟨other, value, rfl, hother, hvalue⟩ hsome
    rw [List.append_assoc] at hcs
    have hle := hmax other (value ++ rest'') hcs hother (h'.complete hvalue hsome)
    rw [List.length_append, List.length_append]
    rcases Nat.lt_or_eq_of_le hle with hlt | heq
    · obtain ⟨hlong, hnil⟩ := hshift hfront hother hvalue hcs hlt
      have hboth := hmax (other ++ value) rest'' (hcs.trans (List.append_assoc _ _ _).symm) hlong
        (h'.complete hnil hsome)
      rw [List.length_append] at hboth
      omega
    · obtain ⟨rfl, hback⟩ := List.append_inj hcs heq.symm
      have hsecond := hmax' value rest'' hback hvalue hsome
      omega
  complete := by
    rintro t _ rest ⟨front, back, rfl, hfront, hback⟩ hsome
    rw [List.append_assoc, List.append_assoc]
    exact h.complete hfront (h'.complete hback hsome)

/-- A single character does not compete with what follows it. -/
theorem one_append {set : CharSet} (h : ReadsLongest steps Q) :
    ReadsLongest (.one set :: steps) (fun value => ∃ c back, value = c :: back ∧
      set.contains c = true ∧ Q back) := by
  refine ((one set).append h ?_).congr fun value => ?_
  · rintro _ _ _ _ _ ⟨_, _, rfl⟩ ⟨_, _, rfl⟩ _ _ hlt
    exact absurd hlt (Nat.lt_irrefl 1)
  · constructor
    · rintro ⟨_, back, rfl, ⟨c, hc, rfl⟩, hback⟩
      exact ⟨c, back, rfl, hc, hback⟩
    · rintro ⟨c, back, rfl, hc, hback⟩
      exact ⟨[c], back, rfl, ⟨c, hc, rfl⟩, hback⟩

theorem exactly (cs : List Char) : ReadsLongest (exactly cs) (· = cs) := by
  induction cs with
  | nil => exact nil
  | cons c cs ih =>
    refine (one_append ih).congr fun value => ?_
    constructor
    · rintro ⟨d, _, rfl, hd, rfl⟩
      rw [CharSet.contains_only, decide_eq_true_iff] at hd
      rw [hd]
    · rintro rfl
      exact ⟨c, cs, rfl, by simp, rfl⟩

theorem oneOrMore (set : CharSet) : ReadsLongest (oneOrMore set)
    (fun value => value ≠ [] ∧ ∀ c ∈ value, set.contains c = true) := by
  refine (one_append (many set)).congr fun value => ?_
  constructor
  · rintro ⟨c, back, rfl, hc, hback⟩
    exact ⟨List.cons_ne_nil c back, List.forall_mem_cons.mpr ⟨hc, hback⟩⟩
  · rintro ⟨hne, hv⟩
    obtain ⟨c, back, rfl⟩ := List.exists_cons_of_ne_nil hne
    obtain ⟨hc, hback⟩ := List.forall_mem_cons.mp hv
    exact ⟨c, back, rfl, hc, hback⟩

end ReadsLongest

end CommandConsole.Template

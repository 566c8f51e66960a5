import CommandConsole.Proofs.Resolving

/-!
# CommandConsole.Proofs.Precedence — which command a line is resolved to

A line can ask for help on several commands and have the signatures of several commands. Of both
kinds the first command counts; between the two, the one that stands further in front, and help if
it is one and the same. So commands that are put behind others never change what a line that was
known before is resolved to.

* `FirstAt`: the first member of a list with a property, and its place.
* `Registry.matchHelp_eq_some_iff`, `Registry.matchCommand_eq_some_iff`: the two kinds alone.
* `Registry.resolve_help_iff`, `Registry.resolve_invoke_iff`, `Registry.resolve_none_iff`: which of
  them counts.
* `Registry.build_append`: commands put behind others.
* `Registry.resolve_precedence`: all of it for a built registry.
-/

namespace CommandConsole

/-! ### First members -/

section First

variable {α β : Type} {P : α → Prop} {xs : List α} {i j k : Nat} {x y : α}

/-- The first member of a list with a property stands at this place. -/
structure FirstAt (P : α → Prop) (xs : List α) (i : Nat) (x : α) : Prop where
  getElem? : xs[i]? = some x
  holds : P x
  before : ∀ k < i, ∀ y, xs[k]? = some y → ¬ P y

theorem FirstAt.le (h : FirstAt P xs i x) (hy : xs[k]? = some y) (hP : P y) : i ≤ k := by
  by_contra hlt
  exact h.before k (by omega) y hy hP

theorem FirstAt.unique (h : FirstAt P xs i x) (h' : FirstAt P xs j y) : i = j ∧ x = y := by
  have hij : i ≤ j := h.le h'.getElem? h'.holds
  have hji : j ≤ i := h'.le h.getElem? h.holds
  obtain rfl : i = j := by omega
  exact ⟨rfl, Option.some.inj (h.getElem?.symm.trans h'.getElem?)⟩

/-- If any member has a property, one of them is the first. -/
theorem exists_firstAt (hy : xs[k]? = some y) (hP : P y) : ∃ i x, FirstAt P xs i x := by
  induction k using Nat.strongRecOn generalizing y with
  | ind k ih =>
    by_cases hearlier : ∃ m < k, ∃ z, xs[m]? = some z ∧ P z
    · obtain ⟨m, hm, z, hz, hPz⟩ := hearlier
      exact ih m hm hz hPz
    · exact ⟨k, y, hy, hP, fun m hm z hz hPz => hearlier ⟨m, hm, z, hz, hPz⟩⟩

/-- The first member with a property is the one behind members without it. -/
theorem firstAt_iff : FirstAt P xs i x ↔
    ∃ before after, xs = before ++ x :: after ∧ before.length = i ∧ P x ∧ ∀ y ∈ before, ¬ P y := by
  constructor
  · rintro ⟨hx, hP, hbefore⟩
    obtain ⟨hi, hget⟩ := List.getElem?_eq_some_iff.mp hx
    refine ⟨xs.take i, xs.drop (i + 1), ?_, List.length_take_of_le (Nat.le_of_lt hi), hP,
      fun y hy => ?_⟩
    · rw [← hget, List.getElem_cons_drop, List.take_append_drop]
    · obtain ⟨k, hk, rfl⟩ := List.mem_take_iff_getElem.mp hy
      have hki : k < i := by omega
      exact hbefore k hki _ (List.getElem?_eq_getElem (by omega))
  · rintro ⟨before, after, rfl, rfl, hP, hbefore⟩
    refine ⟨by simp, hP, fun k hk y hy => ?_⟩
    rw [List.getElem?_append_left hk] at hy
    exact hbefore y (List.mem_of_getElem? hy)

theorem find?_eq_some_iff_firstAt {p : α → Bool} :
    xs.find? p = some x ↔ ∃ i, FirstAt (fun x => p x = true) xs i x := by
  simp only [List.find?_eq_some_iff_append, firstAt_iff, Bool.not_eq_true, Bool.not_eq_eq_eq_not,
    Bool.not_true]
  constructor
  · rintro ⟨hp, before, after, hxs, hbefore⟩
    exact ⟨before.length, before, after, hxs, rfl, hp, hbefore⟩
  · rintro ⟨_, before, after, hxs, -, hp, hbefore⟩
    exact ⟨hp, before, after, hxs, hbefore⟩

theorem findSome?_eq_some_iff_firstAt {f : α → Option β} {b : β} :
    xs.findSome? f = some b ↔
      ∃ i x, FirstAt (fun x => (f x).isSome = true) xs i x ∧ f x = some b := by
  simp only [List.findSome?_eq_some_iff, firstAt_iff, Bool.not_eq_true, Option.isSome_eq_false_iff,
    Option.isNone_iff_eq_none]
  constructor
  · rintro ⟨before, x, after, hxs, hx, hbefore⟩
    exact ⟨before.length, x, ⟨before, after, hxs, rfl, by rw [hx]; rfl, hbefore⟩, hx⟩
  · rintro ⟨_, x, ⟨before, after, hxs, -, -, hbefore⟩, hx⟩
    exact ⟨before, x, after, hxs, hx, hbefore⟩

end First

variable {η : Type} {r : Registry η} {line : String} {c : Command η} {b : Binding η}
  {values : List String} {i j : Nat}

/-! ### The two kinds -/

namespace Command

/-- The first signature of the command that a line has, with the values in the line. -/
def Matches (c : Command η) (line : String) (b : Binding η) (values : List String) : Prop :=
  (∃ k, FirstAt (fun b => (b.signature.captures? line).isSome = true) c.bindings k b) ∧
    b.signature.captures? line = some values

theorem matchLine_eq_some_iff : c.matchLine line = some (b, values) ↔ c.Matches line b values := by
  unfold matchLine Matches
  rw [findSome?_eq_some_iff_firstAt]
  simp only [Option.isSome_map, Option.map_eq_some_iff]
  constructor
  · rintro ⟨k, _, hfirst, _, hvalues, heq⟩
    cases heq
    exact ⟨⟨k, hfirst⟩, hvalues⟩
  · rintro ⟨⟨k, hfirst⟩, hvalues⟩
    exact ⟨k, b, hfirst, values, hvalues, rfl⟩

theorem isSome_matchLine_iff : (c.matchLine line).isSome = true ↔
    ∃ b ∈ c.bindings, (b.signature.captures? line).isSome = true := by
  unfold matchLine
  rw [List.findSome?_isSome_iff]
  simp only [Option.isSome_map]

end Command

namespace Registry

/-- The first command on which a line asks for help, and its place. -/
def HelpAt (r : Registry η) (line : String) (i : Nat) (c : Command η) : Prop :=
  FirstAt (fun c => c.isHelpRequest line = true) r.commands i c

/-- The first command of which a line has a signature, and its place. -/
def SignatureAt (r : Registry η) (line : String) (j : Nat) (c : Command η) : Prop :=
  FirstAt (fun c => ∃ b ∈ c.bindings, (b.signature.captures? line).isSome = true) r.commands j c

theorem matchHelp_eq_some_iff : r.matchHelp line = some c ↔ ∃ i, r.HelpAt line i c :=
  find?_eq_some_iff_firstAt

theorem matchCommand_eq_some_iff : r.matchCommand line = some (b, values) ↔
    ∃ j c, r.SignatureAt line j c ∧ c.Matches line b values := by
  unfold matchCommand SignatureAt
  rw [findSome?_eq_some_iff_firstAt]
  simp only [Command.isSome_matchLine_iff, Command.matchLine_eq_some_iff]

theorem isValid_iff : r.isValid line = true ↔ ∃ j c, r.SignatureAt line j c := by
  unfold isValid matchCommand SignatureAt
  rw [List.findSome?_isSome_iff]
  simp only [Command.isSome_matchLine_iff]
  constructor
  · rintro ⟨c, hc, hsignature⟩
    obtain ⟨k, hk⟩ := List.mem_iff_getElem?.mp hc
    exact exists_firstAt hk hsignature
  · rintro ⟨j, c, hfirst⟩
    exact ⟨c, List.mem_of_getElem? hfirst.getElem?, hfirst.holds⟩

/-! ### Which of them counts -/

theorem isSome_resolveIn_iff : (resolveIn line c).isSome = true ↔
    c.isHelpRequest line = true ∨
      ∃ b ∈ c.bindings, (b.signature.captures? line).isSome = true := by
  rw [← Command.isSome_matchLine_iff]
  unfold resolveIn
  cases c.isHelpRequest line <;> simp

/-- The command that a line is resolved to is the first one that knows it in either way. -/
theorem resolve_eq_some_iff {resolution : Resolution η} : r.resolve line = some resolution ↔
    ∃ i c, FirstAt (fun c => c.isHelpRequest line = true ∨
      ∃ b ∈ c.bindings, (b.signature.captures? line).isSome = true) r.commands i c ∧
      resolveIn line c = some resolution := by
  unfold resolve
  rw [findSome?_eq_some_iff_firstAt]
  simp only [isSome_resolveIn_iff]

/-- **Help** counts if no command in front of it has a signature for the line. -/
theorem resolve_help_iff : r.resolve line = some (.help c) ↔
    ∃ i, r.HelpAt line i c ∧ ∀ j d, r.SignatureAt line j d → i ≤ j := by
  rw [resolve_eq_some_iff]
  constructor
  · rintro ⟨i, d, hfirst, hd⟩
    unfold resolveIn at hd
    split at hd
    · next hhelp =>
      cases hd
      refine ⟨i, ⟨hfirst.getElem?, hhelp, fun k hk y hy hp => ?_⟩, fun j d hj => ?_⟩
      · exact hfirst.before k hk y hy (Or.inl hp)
      · exact hfirst.le hj.getElem? (Or.inr hj.holds)
    · obtain ⟨_, -, heq⟩ := Option.map_eq_some_iff.mp hd
      cases heq
  · rintro ⟨i, hhelp, hle⟩
    refine ⟨i, c, ⟨hhelp.getElem?, Or.inl hhelp.holds, fun k hk y hy hp => ?_⟩, if_pos hhelp.holds⟩
    rcases hp with hp | hp
    · exact hhelp.before k hk y hy hp
    · obtain ⟨j, d, hj⟩ : ∃ j d, r.SignatureAt line j d := exists_firstAt hy hp
      have hjk : j ≤ k := hj.le hy hp
      have hij : i ≤ j := hle j d hj
      omega

/-- **A signature** counts if the line asks for help on no command up to its own. -/
theorem resolve_invoke_iff : r.resolve line = some (.invoke c b values) ↔
    ∃ j, r.SignatureAt line j c ∧ c.Matches line b values ∧
      ∀ i d, r.HelpAt line i d → j < i := by
  rw [resolve_eq_some_iff]
  constructor
  · rintro ⟨j, d, hfirst, hd⟩
    unfold resolveIn at hd
    split at hd
    · cases hd
    · next hhelp =>
      obtain ⟨_, hmatch, heq⟩ := Option.map_eq_some_iff.mp hd
      cases heq
      refine ⟨j, ⟨hfirst.getElem?, hfirst.holds.resolve_left hhelp, fun k hk y hy hp => ?_⟩,
        Command.matchLine_eq_some_iff.mp hmatch, fun i d hi => ?_⟩
      · exact hfirst.before k hk y hy (Or.inr hp)
      · have hji : j ≤ i := hfirst.le hi.getElem? (Or.inl hi.holds)
        rcases Nat.lt_or_eq_of_le hji with hlt | rfl
        · exact hlt
        · have hsame : c = d := Option.some.inj (hfirst.getElem?.symm.trans hi.getElem?)
          exact absurd (hsame ▸ hi.holds) hhelp
  · rintro ⟨j, hsignature, hmatch, hlt⟩
    have hhelp (k : Nat) (hk : k ≤ j) (y : Command η) (hy : r.commands[k]? = some y) :
        ¬ y.isHelpRequest line = true := by
      intro hp
      obtain ⟨i, d, hi⟩ : ∃ i d, r.HelpAt line i d := exists_firstAt hy hp
      have hik : i ≤ k := hi.le hy hp
      have hji : j < i := hlt i d hi
      omega
    refine ⟨j, c, ⟨hsignature.getElem?, Or.inr hsignature.holds, fun k hk y hy hp => ?_⟩, ?_⟩
    · exact hp.elim (hhelp k (Nat.le_of_lt hk) y hy) (hsignature.before k hk y hy)
    · unfold resolveIn
      rw [if_neg (hhelp j (Nat.le_refl j) c hsignature.getElem?),
        Command.matchLine_eq_some_iff.mpr hmatch]
      rfl

theorem resolve_none_iff : r.resolve line = none ↔
    (¬ ∃ i c, r.HelpAt line i c) ∧ ¬ ∃ j c, r.SignatureAt line j c := by
  rw [resolve_eq_none_iff, ← isValid_iff, Bool.not_eq_true, Option.eq_none_iff_forall_not_mem]
  simp only [Option.mem_def, matchHelp_eq_some_iff, not_exists]
  exact and_congr_left' forall_comm

/-! ### Commands put behind others -/

theorem resolve_append (commands more : List (Command η)) (line : String) :
    (Registry.mk (commands ++ more)).resolve line =
      ((Registry.mk commands).resolve line).or ((Registry.mk more).resolve line) :=
  List.findSome?_append

/-- Declarations with others behind them are built as they are without. -/
theorem build_append {ds others : List (CommandDecl η)} {r' : Registry η}
    (h : build (ds ++ others) = .ok r') :
    ∃ r more, build ds = .ok r ∧ r' = ⟨r.commands ++ more⟩ := by
  obtain ⟨hnodup, hcommands⟩ := build_eq_ok_iff.mp h
  obtain ⟨front, more, hfront, -, happend⟩ := exists_of_forall₂_append hcommands
  rw [List.map_append] at hnodup
  refine ⟨⟨front⟩, more, build_eq_ok_iff.mpr ⟨(List.nodup_append.mp hnodup).1, hfront⟩, ?_⟩
  rw [← happend]

/-- **Precedence.** In a built registry, asking for help alone finds the first command on which the
line asks for help, asking for signatures alone finds the first signature of the first command of
which the line has one, and a line is valid if and only if there is such a command. The line is
resolved to the first if it does not stand behind the second, and to the second if it stands in
front of the first; a line without either is resolved to nothing. Declarations that are put behind
change nothing for a line that is resolved to something without them. -/
theorem resolve_precedence {ds : List (CommandDecl η)} (h : build ds = .ok r) (line : String) :
    (∀ c, r.matchHelp line = some c ↔ ∃ i, r.HelpAt line i c) ∧
    (∀ b values, r.matchCommand line = some (b, values) ↔
      ∃ j c, r.SignatureAt line j c ∧ c.Matches line b values) ∧
    (r.isValid line = true ↔ ∃ j c, r.SignatureAt line j c) ∧
    (∀ c, r.resolve line = some (.help c) ↔
      ∃ i, r.HelpAt line i c ∧ ∀ j d, r.SignatureAt line j d → i ≤ j) ∧
    (∀ c b values, r.resolve line = some (.invoke c b values) ↔
      ∃ j, r.SignatureAt line j c ∧ r.matchCommand line = some (b, values) ∧
        ∀ i d, r.HelpAt line i d → j < i) ∧
    (r.resolve line = none ↔ (¬ ∃ i c, r.HelpAt line i c) ∧ ¬ ∃ j c, r.SignatureAt line j c) ∧
    (∀ more, (Registry.mk (r.commands ++ more)).resolve line =
      (r.resolve line).or ((Registry.mk more).resolve line)) ∧
    ∀ others r', build (ds ++ others) = .ok r' → ∀ resolution,
      r.resolve line = some resolution → r'.resolve line = some resolution := by
  refine ⟨fun _ => matchHelp_eq_some_iff, fun _ _ => matchCommand_eq_some_iff, isValid_iff,
    fun _ => resolve_help_iff, fun c b values => ?_, resolve_none_iff,
    fun more => resolve_append r.commands more line, fun others r' h' resolution hr => ?_⟩
  · rw [resolve_invoke_iff, matchCommand_eq_some_iff]
    refine exists_congr fun j => and_congr_right fun hj => and_congr_left' ?_
    refine ⟨fun hmatch => ⟨j, c, hj, hmatch⟩, fun ⟨_, d, hd, hmatch⟩ => ?_⟩
    obtain ⟨-, rfl⟩ := hj.unique hd
    exact hmatch
  · obtain ⟨_, more, hbuild, rfl⟩ := build_append h'
    obtain rfl := Except.ok.inj (h.symm.trans hbuild)
    rw [resolve_append, hr, Option.some_or]

/-- A line that asks for help on a command keeps the signature of another one in front of it. -/
theorem resolve_precedence_overlapping :
    let print : CommandDecl Unit := ⟨"print", "", [⟨.written "print <text:s>", "", some ()⟩]⟩
    let longer : CommandDecl Unit := ⟨"print x", "", []⟩
    ∃ r r', build [print] = .ok r ∧ build [print, longer] = .ok r' ∧
      (∃ c, r'.matchHelp "print x ?" = some c ∧ c.name = "print x") ∧
      ∃ c b, r.matchCommand "print x ?" = some (b, ["x ?"]) ∧
        r'.resolve "print x ?" = some (.invoke c b ["x ?"]) := by
  intro print longer
  have hvalues : ∃ r ∈ (build [print]).toOption, (r.resolve "print x ?").any (fun
      | .help _ => false
      | .invoke _ _ values => values = ["x ?"]) = true := by decide +kernel
  have hhelp : ∃ r' ∈ (build [print, longer]).toOption,
      (r'.matchHelp "print x ?").map (·.name) = some "print x" := by decide +kernel
  have ok {x : Except ConsoleError (Registry Unit)} {r : Registry Unit} (h : r ∈ x.toOption) :
      x = .ok r := by
    cases x with
    | error e => cases h
    | ok r' => exact congrArg _ (Option.some.inj h)
  obtain ⟨r, hr, hvalues⟩ := hvalues
  obtain ⟨r', hr', hhelp⟩ := hhelp
  obtain ⟨resolution, hresolve, hvalues⟩ := (Option.any_eq_true _ _).mp hvalues
  obtain ⟨-, -, -, -, hinvoke, -, -, hmore⟩ := resolve_precedence (ok hr) "print x ?"
  cases resolution with
  | help c => cases hvalues
  | invoke c b values =>
    obtain rfl : values = ["x ?"] := of_decide_eq_true hvalues
    obtain ⟨_, -, hmatch, -⟩ := (hinvoke c b _).mp hresolve
    exact ⟨r, r', ok hr, ok hr', Option.map_eq_some_iff.mp hhelp, c, b, hmatch,
      hmore [longer] r' (ok hr') _ hresolve⟩

end Registry

end CommandConsole

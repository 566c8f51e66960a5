import CommandConsole.Registry
import CommandConsole.Proofs.Except

/-!
# CommandConsole.Proofs.Registry — where the commands of a registry come from

A built registry has one command for each declaration, in the same order, and each command has one
binding for each declared signature, with its handler. A line that invokes a handler has a signature
of it.

* `SignatureDecl.build_eq_ok_iff`, `CommandDecl.build_eq_ok_iff`, `Registry.build_eq_ok_iff`: what a
  build makes of declarations, one by one.
* `Registry.buildAfter_eq_error_iff`: which of them a build ends with.
* `Registry.exists_decl_of_mem`: the declared signature of a binding.
* `Registry.captures?_of_resolve`: what is known of a line that invokes a handler.
-/

namespace CommandConsole

variable {η : Type}

theorem exists_of_forall₂ {α β : Type} {R : α → β → Prop} {xs : List α} {ys : List β}
    (h : List.Forall₂ R xs ys) {y : β} (hy : y ∈ ys) : ∃ x ∈ xs, R x y := by
  induction h with
  | nil => cases hy
  | @cons x z xs zs hxz _ ih =>
    rcases List.mem_cons.mp hy with rfl | hy
    · exact ⟨x, List.mem_cons_self, hxz⟩
    · obtain ⟨x', hx', hr⟩ := ih hy
      exact ⟨x', List.mem_cons_of_mem x hx', hr⟩

theorem exists_forall₂_iff {α β : Type} {R : α → β → Prop} {xs : List α} :
    (∃ ys, List.Forall₂ R xs ys) ↔ ∀ x ∈ xs, ∃ y, R x y := by
  induction xs with
  | nil => simp
  | cons x xs ih =>
    simp only [List.forall₂_cons_left_iff, List.forall_mem_cons, ← ih]
    constructor
    · rintro ⟨_, y, ys, hy, hys, rfl⟩
      exact ⟨⟨y, hy⟩, ys, hys⟩
    · rintro ⟨⟨y, hy⟩, ys, hys⟩
      exact ⟨y :: ys, y, ys, hy, hys, rfl⟩

/-- What stands in pairs with two lists in turn is in two parts as well. -/
theorem exists_of_forall₂_append {α β : Type} {R : α → β → Prop} {xs xs' : List α} {ys : List β}
    (h : List.Forall₂ R (xs ++ xs') ys) : ∃ front behind,
      List.Forall₂ R xs front ∧ List.Forall₂ R xs' behind ∧ ys = front ++ behind := by
  induction xs generalizing ys with
  | nil => exact ⟨[], ys, .nil, h, rfl⟩
  | cons x xs ih =>
    cases h with
    | cons hx h =>
      obtain ⟨front, behind, hfront, hbehind, rfl⟩ := ih h
      exact ⟨_ :: front, behind, .cons hx hfront, hbehind, rfl⟩

/-- A declared signature is built from its grammar, with its hint and its handler. -/
theorem SignatureDecl.build_eq_ok_iff {command : String} {d : SignatureDecl η} {b : Binding η} :
    d.build command = .ok b ↔
      d.grammar.compile = .ok b.signature ∧ b.hint = d.hint ∧ d.handler = some b.handler := by
  unfold SignatureDecl.build
  rw [bind_eq_ok_iff]
  obtain ⟨signature, hint, handler⟩ := b
  cases d.handler <;> simp [throw, throwThe, MonadExceptOf.throw, pure, Except.pure, eq_comm]

theorem SignatureDecl.of_build {command : String} {d : SignatureDecl η} {b : Binding η}
    (h : d.build command = .ok b) :
    d.grammar.compile = .ok b.signature ∧ d.handler = some b.handler := by
  obtain ⟨hsignature, -, hhandler⟩ := build_eq_ok_iff.mp h
  exact ⟨hsignature, hhandler⟩

/-- A command has its declared name and description, and one binding for each declared signature. -/
theorem CommandDecl.build_eq_ok_iff {d : CommandDecl η} {c : Command η} :
    d.build = .ok c ↔ c.name = d.trimmedName ∧ c.description = d.description ∧
      List.Forall₂ (fun sd b => sd.build d.trimmedName = .ok b) d.signatures c.bindings := by
  unfold CommandDecl.build
  rw [bind_eq_ok_iff]
  obtain ⟨name, description, bindings⟩ := c
  simp only [mapM_eq_ok_iff, pure, Except.pure, Except.ok.injEq, Command.mk.injEq]
  constructor
  · rintro ⟨_, hbindings, rfl, rfl, rfl⟩
    exact ⟨rfl, rfl, hbindings⟩
  · rintro ⟨rfl, rfl, hbindings⟩
    exact ⟨bindings, hbindings, rfl, rfl, rfl⟩

theorem CommandDecl.of_build {d : CommandDecl η} {c : Command η} (h : d.build = .ok c) :
    c.name = d.trimmedName ∧
      List.Forall₂ (fun sd b => sd.build d.trimmedName = .ok b) d.signatures c.bindings := by
  obtain ⟨hname, -, hbindings⟩ := build_eq_ok_iff.mp h
  exact ⟨hname, hbindings⟩

namespace Registry

theorem buildAfter_cons {d : CommandDecl η} {taken : List String} (h : d.trimmedName ∉ taken)
    (ds : List (CommandDecl η)) : buildAfter taken (d :: ds) =
      d.build >>= fun c => (buildAfter (d.trimmedName :: taken) ds).map (c :: ·) := by
  rw [buildAfter, if_neg fun hm => h (List.contains_iff_mem.mp hm)]
  rfl

/-- Commands are built if their names are neither taken nor repeated. -/
theorem buildAfter_eq_ok_iff {ds : List (CommandDecl η)} {taken : List String}
    {cs : List (Command η)} : buildAfter taken ds = .ok cs ↔
      (∀ d ∈ ds, d.trimmedName ∉ taken) ∧ (ds.map (·.trimmedName)).Nodup ∧
        List.Forall₂ (fun d c => d.build = .ok c) ds cs := by
  induction ds generalizing taken cs with
  | nil => simp [buildAfter, eq_comm]
  | cons d ds ih =>
    by_cases hd : d.trimmedName ∈ taken
    · simp [buildAfter, hd]
    · have hnames : (∀ d' ∈ ds, d'.trimmedName ∉ d.trimmedName :: taken) ↔
          (∀ d' ∈ ds, d'.trimmedName ∉ taken) ∧ d.trimmedName ∉ ds.map (·.trimmedName) := by
        simp [not_or, forall_and, and_comm]
      rw [buildAfter_cons hd, bind_eq_ok_iff, List.forall₂_cons_left_iff, List.forall_mem_cons,
        List.map_cons, List.nodup_cons]
      simp only [map_eq_ok_iff, ih, hnames]
      constructor
      · rintro ⟨c, hc, cs, ⟨⟨htaken, hfirst⟩, hnodup, hcs⟩, rfl⟩
        exact ⟨⟨hd, htaken⟩, ⟨hfirst, hnodup⟩, c, cs, hc, hcs, rfl⟩
      · rintro ⟨⟨-, htaken⟩, ⟨hfirst, hnodup⟩, c, cs, hc, hcs, rfl⟩
        exact ⟨c, hc, cs, ⟨⟨htaken, hfirst⟩, hnodup, hcs⟩, rfl⟩

/-- Building commands ends with the first whose name is taken or that cannot be built. -/
theorem buildAfter_eq_error_iff {ds : List (CommandDecl η)} {taken : List String}
    {e : ConsoleError} : buildAfter taken ds = .error e ↔
      ∃ front d rest, ds = front ++ d :: rest ∧ (∃ cs, buildAfter taken front = .ok cs) ∧
        ((d.trimmedName ∈ front.map (·.trimmedName) ++ taken ∧
            e = .duplicateCommand d.trimmedName) ∨
          (d.trimmedName ∉ front.map (·.trimmedName) ++ taken ∧ d.build = .error e)) := by
  induction ds generalizing taken with
  | nil => simp [buildAfter]
  | cons d ds ih =>
    rw [exists_split_cons]
    by_cases hd : d.trimmedName ∈ taken
    · simp [buildAfter, hd, eq_comm]
    · have hknown (front : List (CommandDecl η)) (name : String) :
          name ∈ (d :: front).map (·.trimmedName) ++ taken ↔
            name ∈ front.map (·.trimmedName) ++ d.trimmedName :: taken := by
        simp only [List.map_cons, List.cons_append, List.mem_cons, List.mem_append]
        exact or_left_comm
      have hfirst (front : List (CommandDecl η)) : (∃ cs, buildAfter taken (d :: front) = .ok cs) ↔
          (∃ c, d.build = .ok c) ∧ ∃ cs, buildAfter (d.trimmedName :: taken) front = .ok cs := by
        simp [buildAfter_cons hd, bind_eq_ok_iff, map_eq_ok_iff]
      rw [buildAfter_cons hd, bind_eq_error_iff]
      simp only [map_eq_error_iff, ih, hknown, hfirst]
      refine or_congr (by simp [buildAfter, hd]) ?_
      constructor
      · rintro ⟨c, hc, front, d', rest, rfl, hfront, herror⟩
        exact ⟨front, d', rest, rfl, ⟨⟨c, hc⟩, hfront⟩, herror⟩
      · rintro ⟨front, d', rest, rfl, ⟨⟨c, hc⟩, hfront⟩, herror⟩
        exact ⟨c, hc, front, d', rest, rfl, hfront, herror⟩

/-- A built registry has one command for each declaration, and their names are distinct. -/
theorem build_eq_ok_iff {ds : List (CommandDecl η)} {r : Registry η} : build ds = .ok r ↔
    (ds.map (·.trimmedName)).Nodup ∧ List.Forall₂ (fun d c => d.build = .ok c) ds r.commands := by
  unfold build
  rw [map_eq_ok_iff]
  simp only [buildAfter_eq_ok_iff, List.not_mem_nil, not_false_eq_true, implies_true, true_and]
  constructor
  · rintro ⟨cs, hcs, rfl⟩
    exact hcs
  · intro h
    exact ⟨r.commands, h, rfl⟩

theorem of_build {ds : List (CommandDecl η)} {r : Registry η} (h : build ds = .ok r) :
    List.Forall₂ (fun d c => d.build = .ok c) ds r.commands :=
  (build_eq_ok_iff.mp h).2

/-- **Origin**: every binding of a built registry was declared, with its handler and its grammar. -/
theorem exists_decl_of_mem {ds : List (CommandDecl η)} {r : Registry η} (h : build ds = .ok r)
    {c : Command η} (hc : c ∈ r.commands) {b : Binding η} (hb : b ∈ c.bindings) :
    ∃ d ∈ ds, ∃ sd ∈ d.signatures,
      sd.grammar.compile = .ok b.signature ∧ sd.handler = some b.handler := by
  obtain ⟨d, hd, hdc⟩ := exists_of_forall₂ (of_build h) hc
  obtain ⟨sd, hsd, hsb⟩ := exists_of_forall₂ (CommandDecl.of_build hdc).2 hb
  exact ⟨d, hd, sd, hsd, SignatureDecl.of_build hsb⟩

/-- A line that invokes a handler has the signature of a command in the registry. -/
theorem captures?_of_resolve {r : Registry η} {line : String} {c : Command η} {b : Binding η}
    {values : List String} (h : r.resolve line = some (.invoke c b values)) :
    c ∈ r.commands ∧ b ∈ c.bindings ∧ b.signature.captures? line = some values := by
  obtain ⟨d, hd, hr⟩ := List.exists_of_findSome?_eq_some h
  unfold resolveIn at hr
  split at hr
  · cases hr
  · obtain ⟨⟨b', values'⟩, hm, he⟩ := Option.map_eq_some_iff.mp hr
    cases he
    obtain ⟨b'', hb, hv⟩ := List.exists_of_findSome?_eq_some hm
    obtain ⟨values'', hc, he⟩ := Option.map_eq_some_iff.mp hv
    cases he
    exact ⟨hd, hb, hc⟩

end Registry

end CommandConsole

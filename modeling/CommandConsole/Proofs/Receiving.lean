import CommandConsole.Proofs.Accepting
import CommandConsole.Proofs.Builtins
import CommandConsole.Proofs.Capturing
import CommandConsole.Proofs.Course
import CommandConsole.Proofs.Numbering
import CommandConsole.Proofs.Reachable

/-!
# CommandConsole.Proofs.Receiving — handlers receive what they were declared for

A line that invokes a handler gives it as many values as its signature has groups, one for each
group in the order in which they open, and an empty text for a group that takes no part in the
match. A built-in handler asks for no more values than its signature has groups. So none of them
ever fails for want of a value, on whatever way its line comes to be run.

* `Grammar.exists_pattern`: every signature is a pattern, written or made by hand.
* `Builtins.suffices_of_mem`: what the built-in handlers ask for.
* `Console.Course.supplied`: whatever is run does not end for want of a value.
* `Console.handlers_receive`: both, for registries and for runs.
-/

namespace CommandConsole

open Pattern

/-! ### Signatures -/

namespace Signature

theorem matcher_of_custom {pattern display : String} {s : Signature}
    (h : custom pattern display = .ok s) :
    s.matcher.toList = opening ++ (pattern.toList ++ closing) := by
  have hmatcher : s.matcher = "^(?:" ++ pattern ++ ")$" := by
    unfold custom at h
    dsimp only at h
    split at h
    · cases h
    · cases h
      rfl
  rw [hmatcher, String.toList_append, String.toList_append, List.append_assoc]
  rfl

end Signature

/-- **Patterns**: a signature is a pattern that has been read. It gives the values that the pattern
gives, and the same number of them. -/
theorem Grammar.exists_pattern {g : Grammar} {signature : Signature}
    (h : g.compile = .ok signature) : ∃ e, Expr.read signature.matcher.toList = .ok e ∧
      signature.arity = e.toPattern.arity ∧
      ∀ line, signature.captures? line = e.toPattern.captures? line := by
  cases g with
  | written raw =>
    obtain ⟨tokens, hread, hne, rfl⟩ := Signature.exists_of_compile h
    have htokens : ∀ token ∈ tokens, ∃ text, SignatureToken.read? text = some token := by
      intro token hm
      obtain ⟨text, -, htext⟩ := exists_of_forall₂ (Signature.readTokens_eq_ok_iff.mp hread) hm
      exact ⟨text, htext.read?_eq⟩
    obtain ⟨e, he, hlines⟩ := @Signature.exists_pattern raw tokens hne htokens
    obtain ⟨e', he', hcloses⟩ := Signature.exists_closes raw hne htokens
    obtain rfl := Except.ok.inj (he.symm.trans he')
    refine ⟨_, he, ?_, fun line => (hlines line).symm⟩
    exact ((Nat.zero_max _).trans (hcloses.arity_eq 0)).symm
  | custom pattern display =>
    obtain ⟨e, he, hrule⟩ := Signature.exists_read_of_custom h
    refine ⟨e, ?_, ?_, fun line => ?_⟩
    · rw [Signature.matcher_of_custom h]
      exact he
    · rw [Signature.arity, hrule]
    · rw [Signature.captures?, hrule]
      rfl

/-! ### Wanting a value -/

variable {τ α β : Type}

/-- The error of a handler that has too few values. -/
def ConsoleError.IsMissing (e : ConsoleError) : Prop :=
  ∃ index : Nat, e = .invalidArgument s!"missing argument {index}"

/-- The outcome is not that of a handler that has too few values. -/
def Supplied (outcome : Outcome) : Prop := ∀ e, outcome = .error e → ¬ e.IsMissing

theorem supplied_ok : Supplied (.ok ()) := nofun

theorem supplied_error {e : ConsoleError} (h : ¬ e.IsMissing) : Supplied (.error e) :=
  fun _ he => Except.error.inj he ▸ h

namespace ConsoleError

theorem not_isMissing {reason : String} (h : reason.toList.head? ≠ some 'm') :
    ¬ (invalidArgument reason).IsMissing := by
  rintro ⟨index, heq⟩
  rw [invalidArgument.inj heq] at h
  refine h ?_
  show ("missing argument " ++ toString index).toList.head? = some 'm'
  rw [String.toList_append]
  rfl

theorem Concerns.not_isMissing {name : String} {e : ConsoleError} (h : e.Concerns name) :
    ¬ e.IsMissing := by
  cases h with
  | blank => exact ConsoleError.not_isMissing (by decide)
  | reserved | unknownAlias | invalidHook => exact nofun

end ConsoleError

namespace Action

/-- The action does not end for want of a value, as long as none of its operations does. -/
def Complete : Action τ α → Prop
  | done _ => True
  | fail e => ¬ e.IsMissing
  | .perform _ next => ∀ outcome, Supplied outcome → (next outcome).Complete
  | .look next => ∀ v, (next v).Complete

namespace Complete

theorem call (op : Op τ) : (call op).Complete := by
  intro outcome ho
  cases outcome with
  | ok _ => trivial
  | error e => exact ho e rfl

theorem doing (p : Primitive τ) : (doing p).Complete := .call _

theorem bind {a : Action τ α} {f : α → Action τ β} (ha : a.Complete) (hf : ∀ x, (f x).Complete) :
    (a.bind f).Complete := by
  induction a with
  | done value => exact hf value
  | fail e => exact ha
  | perform op next ih => exact fun outcome ho => ih outcome (ha outcome ho)
  | look next ih => exact fun v => ih v (ha v)

end Complete

end Action

/-! ### The built-in handlers -/

namespace Builtins

open CommandConsole.Action

theorem complete_value {values : List String} {index : Nat} (h : index < values.length) :
    (value values index : Action τ String).Complete := by
  unfold value
  rw [List.getElem?_eq_getElem h]
  trivial

theorem complete_parsed (read? : String → Option α) (text : String) :
    (parsed read? text : Action τ α).Complete := by
  unfold parsed
  cases read? text with
  | none =>
    refine ConsoleError.not_isMissing ?_
    show ("'" ++ text ++ "' is out of range").toList.head? ≠ some 'm'
    rw [String.toList_append, String.toList_append]
    exact nofun
  | some x => trivial

/-- As many values as the signature has groups are enough for the handler. -/
def Suffices (sd : SignatureDecl (Handler τ)) : Prop :=
  ∀ signature, sd.grammar.compile = .ok signature → ∀ handler, sd.handler = some handler →
    ∀ values, values.length = signature.arity → (handler values).Complete

theorem suffices_signature {raw hint : String} {handler : Handler τ} (n : Nat)
    (hn : (Signature.compile raw).toOption.map (·.arity) = some n)
    (h : ∀ values, values.length = n → (handler values).Complete) :
    Suffices (signature raw hint handler) := by
  rintro compiled hcompile _ ⟨⟩ values hlength
  have hcompile : Signature.compile raw = .ok compiled := hcompile
  rw [hcompile] at hn
  exact h values (hlength.trans (Option.some.inj hn))

/-- **Handlers**: each built-in handler asks for as many values as its signature has groups. -/
theorem suffices_of_mem [Seconds τ] {d : CommandDecl (Handler τ)} (hd : d ∈ all)
    {sd : SignatureDecl (Handler τ)} (hs : sd ∈ d.signatures) : Suffices sd := by
  suffices h : ∀ sd ∈ d.signatures, Suffices sd from h sd hs
  -- most handlers ask for no value, or for one
  have none {raw hint : String} {a : Action τ Unit} (ha : a.Complete)
      (hn : (Signature.compile raw).toOption.map (·.arity) = some 0) :
      Suffices (signature raw hint fun _ => a) := suffices_signature 0 hn fun _ _ => ha
  have one {raw hint : String} {f : String → Action τ Unit} (hf : ∀ text, (f text).Complete)
      (hn : (Signature.compile raw).toOption.map (·.arity) = some 1) :
      Suffices (signature raw hint fun values => (value values 0).bind f) :=
    suffices_signature 1 hn fun values hlength => (complete_value (by omega)).bind hf
  simp only [all, List.mem_cons, List.not_mem_nil, or_false] at hd
  rcases hd with rfl | rfl | rfl | rfl | rfl | rfl | rfl | rfl | rfl | rfl
  all_goals
    simp only [help, print, clear, showPanel, hidePanel, aliases, events, fontSize, delay, exec,
      List.forall_mem_cons, List.not_mem_nil, false_implies, implies_true, and_true]
  · exact none (fun _ => (Complete.doing _).bind fun _ => .doing _) (by decide +kernel)
  · exact one (fun _ => .doing _) (by decide +kernel)
  · exact none (.doing _) (by decide +kernel)
  · exact none (.doing _) (by decide +kernel)
  · exact none (.doing _) (by decide +kernel)
  · refine ⟨suffices_signature 2 (by decide +kernel) fun values hlength => ?_,
      one (fun _ => .doing _) (by decide +kernel), one (fun _ => .doing _) (by decide +kernel)⟩
    exact (complete_value (by omega)).bind fun _ =>
      (complete_value (by omega)).bind fun _ => .doing _
  · exact ⟨one (fun _ => .doing _) (by decide +kernel), one (fun _ => .doing _) (by decide +kernel),
      one (fun _ => .doing _) (by decide +kernel), none (.doing _) (by decide +kernel)⟩
  · exact ⟨none (.doing _) (by decide +kernel),
      one (fun _ => (complete_parsed _ _).bind fun _ => .doing _) (by decide +kernel)⟩
  · exact one (fun _ => (complete_parsed _ _).bind fun _ => .doing _) (by decide +kernel)
  · exact one (fun _ => .call _) (by decide +kernel)

end Builtins

/-! ### Runs -/

namespace Console

variable [Seconds τ] {c : Console τ}

/-- The action that a line invokes does not end for want of a value, as long as none of its
operations does. -/
theorem IsBuiltin.complete (hc : c.IsBuiltin) {line : String} {command : Command (Handler τ)}
    {binding : Binding (Handler τ)} {values : List String}
    (h : c.registry.resolve line = some (.invoke command binding values)) :
    (binding.handler values).Complete := by
  obtain ⟨hm, hb, hvalues⟩ := Registry.captures?_of_resolve h
  obtain ⟨d, hd, sd, hs, hg, hh⟩ := Registry.exists_decl_of_mem hc hm hb
  obtain ⟨e, -, harity, hlines⟩ := Grammar.exists_pattern hg
  rw [hlines] at hvalues
  refine Builtins.suffices_of_mem hd hs _ hg _ hh _ ?_
  rw [harity, length_of_captures? hvalues]

/-- **Runs**: what is run does not end for want of a value. -/
theorem Course.supplied (hc : c.IsBuiltin) {job : Job τ} {path : Path} {s t : Session τ}
    {origins origins' : List Path} {moments : List (Moment τ)} {outcome : Outcome}
    (h : c.Course job path s origins moments outcome t origins')
    (hjob : ∀ a, job = .action a → a.Complete) : Supplied outcome := by
  induction h with
  | primitive hp =>
    rintro e rfl
    obtain ⟨-, name, -, hconcerns⟩ := Primitive.of_error hp
    exact hconcerns.not_isMissing
  | refused | unresolved => exact supplied_error nofun
  | blank | help | unbound | ignored | nil | park | done | settled => exact supplied_ok
  | execute | tick | fired | submitted | resumed => exact supplied_ok
  | expanded _ _ _ _ _ ih | runSequence _ ih | abort _ _ _ ih => exact ih nofun
  | invoked _ _ _ hr _ ih => exact ih fun a ha => Job.action.inj ha ▸ hc.complete hr
  | goesOn _ _ _ _ _ ih' => exact ih' nofun
  | fail => exact supplied_error (hjob _ rfl)
  | perform _ _ ih ih' => exact ih' fun a ha => Job.action.inj ha ▸ hjob _ rfl _ (ih nofun)
  | look _ ih => exact ih fun a ha => Job.action.inj ha ▸ hjob _ rfl _

/-- **Handlers.** In every registry a line that invokes a handler gives it as many values as its
signature says, written or made by hand. The signature is a pattern whose groups are numbered in the
order in which they open; they count up to the last one that is not repeated no times, so all of
them, if no group is. The line has a match of this pattern, and each value is the last part of the
line that its group takes in it, or the empty text, if it takes none.

With the built-in commands no handler ever fails for want of a value, whatever line invokes it in
whatever session, and so no operation does, nor any of those whose courses it is made of: no line
that is entered, none that an alias stands for, that `exec` runs, that is bound to a hook, or that a
tick resumes. -/
theorem handlers_receive (τ : Type) [Seconds τ] :
    (∀ (η : Type) (ds : List (CommandDecl η)) (r : Registry η), Registry.build ds = .ok r →
      ∀ line command binding values,
        r.resolve line = some (.invoke command binding values) →
        values.length = binding.signature.arity ∧
        ∃ e, Expr.read binding.signature.matcher.toList = .ok e ∧
          e.groups = List.range' 1 e.groups.length ∧
          binding.signature.arity = e.used.foldr max 0 ∧
          (e.used = e.groups → binding.signature.arity = e.groups.length) ∧
          ∃ i j parts, e.toPattern.Takes line.toList i j parts ∧ Within line.toList i j parts ∧
            (∀ part ∈ parts, part.index ≤ values.length) ∧
            ∀ index value, values[index]? = some value →
              Holds line.toList (index + 1) parts value) ∧
    ∀ c : Console τ, c.IsBuiltin →
      (∀ line command binding values,
        c.registry.resolve line = some (.invoke command binding values) →
        ∀ path s origins moments outcome t origins',
          c.Course (.action (binding.handler values)) path s origins moments outcome t origins' →
            Supplied outcome) ∧
      ∀ op s outcome t, c.Returns op s outcome t → Supplied outcome ∧
        ∃ origins moments origins', c.Course (.op op) [] s origins moments outcome t origins' ∧
          ∀ m ∈ moments, ∀ op, m.occasion = .starts op → ∃ origins inner outcome t origins',
            c.Course (.op op) m.path m.session origins inner outcome t origins' ∧
              inner <:+: moments ∧ Supplied outcome := by
  refine ⟨fun η ds r hr line command binding values hline => ?_, fun c hc =>
    ⟨fun line command binding values hline path s origins moments outcome t origins' hcourse => ?_,
      fun op s outcome t hreturns => ?_⟩⟩
  · obtain ⟨hm, hb, hvalues⟩ := Registry.captures?_of_resolve hline
    obtain ⟨d, -, sd, -, hg, -⟩ := Registry.exists_decl_of_mem hr hm hb
    obtain ⟨e, he, harity, hlines⟩ := Grammar.exists_pattern hg
    rw [hlines] at hvalues
    obtain ⟨hlength, hmatch⟩ := takes_of_captures? hvalues
    rw [harity]
    exact ⟨hlength, e, he, Expr.groups_of_read he, Expr.arity_of_read he,
      Expr.arity_eq_length he, hmatch⟩
  · exact hcourse.supplied hc fun a ha => Job.action.inj ha ▸ hc.complete hline
  · obtain ⟨origins, moments, origins', hcourse⟩ := hreturns.exists_course_nil
    refine ⟨hcourse.supplied hc nofun, origins, moments, origins', hcourse, fun m hm op ho => ?_⟩
    obtain ⟨_, _, _, _, _, hinner, hpart⟩ := hcourse.startsIn m hm op ho
    exact ⟨_, _, _, _, _, hinner, hpart, hinner.supplied hc nofun⟩

/-- A pattern with groups inside another one, a named one among them, of which the line passes one,
and a group that it leaves out; and a statement behind one that `exec` delays, resumed by a tick. -/
theorem handlers_receive_groups :
    let pick : CommandDecl Nat :=
      ⟨"pick", "", [⟨.custom "((?P<a>x)|(y))(z)?" "pick", "", some 0⟩]⟩
    let c := exact .standard
    let s := Session.remembering c.config (TextMap.empty.insert "go" "exec delay 1; print a")
    (∃ r command binding, Registry.build [pick] = .ok r ∧
      r.resolve "y" = some (.invoke command binding ["y", "", "y", ""]) ∧
      binding.signature.arity = 4) ∧
    ∃ t u origins moments origins', c.Returns (.dispatch "go") s (.ok ()) t ∧
      t.sequencer.hasPending = true ∧
      c.Course (.op (.tick ⟨2, 0⟩)) [] t origins moments (.ok ()) u origins' ∧
      u.output = [.line .info "a"] ∧
      ∀ m ∈ moments, ∀ op, m.occasion = .starts op → ∃ origins inner outcome v origins',
        c.Course (.op op) m.path m.session origins inner outcome v origins' ∧
          inner <:+: moments ∧ Supplied outcome := by
  intro pick c s
  obtain ⟨hlines, hruns⟩ := handlers_receive Rat
  refine ⟨?_, ?_⟩
  · let p : Pattern := .seq (.anchor .textStart) (.seq (.seq
      (.group 1 (.alt 0 (.group 2 (.one (.only 'x'))) (.group 3 (.one (.only 'y')))))
      (.seq .empty (.alt 1 (.seq (.group 4 (.one (.only 'z'))) .empty) .empty))) (.anchor .textEnd))
    let signature : Signature :=
      { raw := "((?P<a>x)|(y))(z)?", display := "pick", matcher := "^(?:((?P<a>x)|(y))(z)?)$"
        rule := .custom p, placeholders := [] }
    let binding : Binding Nat := ⟨signature, "", 0⟩
    let command : Command Nat := ⟨"pick", "", [binding]⟩
    have hcompile : Signature.custom "((?P<a>x)|(y))(z)?" "pick" = .ok signature := by
      decide +kernel
    have hname : Text.trim "pick" = "pick" := by decide +kernel
    have hbuild : Registry.build [pick] = .ok ⟨[command]⟩ := by
      refine Registry.build_eq_ok_iff.mpr ⟨List.pairwise_singleton _ _, .cons ?_ .nil⟩
      refine CommandDecl.build_eq_ok_iff.mpr ⟨hname.symm, rfl, .cons ?_ .nil⟩
      exact SignatureDecl.build_eq_ok_iff.mpr ⟨hcompile, rfl, rfl⟩
    have hcaptures : p.captures? "y" = some ["y", "", "y", ""] := by
      have hline : "y".toList = ['y'] := by decide
      simp [p, Pattern.captures?, Pattern.find?, Pattern.startsText, run, hline, Search.once,
        Search.first, Search.found, Search.nothing, Anchor.holds, Cursor.advance, Pattern.arity,
        CharSet.only, Cursor.capture, Cursor.captured, List.range, List.range.loop, Capture.text]
    have hhelp : command.isHelpRequest "y" = false := by decide +kernel
    have hresolve : Registry.resolve ⟨[command]⟩ "y" =
        some (.invoke command binding ["y", "", "y", ""]) := by
      have hvalues : binding.signature.captures? "y" = some ["y", "", "y", ""] := hcaptures
      have hmatch : command.matchLine "y" = some (binding, ["y", "", "y", ""]) := by
        unfold Command.matchLine
        rw [List.findSome?_cons, hvalues]
        rfl
      unfold Registry.resolve
      rw [List.findSome?_cons, Registry.resolveIn, hhelp, hmatch]
      rfl
    exact ⟨_, _, _, hbuild, hresolve, (hlines Nat _ _ hbuild _ _ _ _ hresolve).1.symm⟩
  · have h : ∃ r ∈ c.perform 12 (.dispatch "go") s, r.1 = .ok () ∧
        r.2.sequencer.hasPending = true ∧ ∃ r' ∈ c.perform 12 (.tick ⟨2, 0⟩) r.2, r'.1 = .ok () ∧
          r'.2.output = [.line .info "a"] := by
      decide +kernel
    obtain ⟨⟨_, t⟩, ht, rfl, hpending, ⟨_, u⟩, hu, rfl, hout⟩ := h
    obtain ⟨-, hops⟩ := hruns c (isBuiltin_exact .standard)
    obtain ⟨-, origins, moments, origins', hcourse, hm⟩ := hops _ _ _ _ ⟨12, hu⟩
    exact ⟨t, u, origins, moments, origins', ⟨12, ht⟩, hpending, hcourse, hout, hm⟩

end Console

end CommandConsole

import CommandConsole.Proofs.Grammar
import CommandConsole.Proofs.Reachable
import CommandConsole.Proofs.Trimming

/-!
# CommandConsole.Proofs.Atomicity — a line that fails changes nothing

A line that is not an alias does one thing at most: it is blank or rejected, it shows help, or a
handler acts on its values. Whatever can fail is checked before anything is changed, so a line that
fails leaves the session as it is, and the user is told about it in one line.

* `ConsoleError.Plain`: errors about what a user typed, whose wording is shown as it is.
* `Console.Does`, `Console.IsBuiltin.exists_does`: what a line that is not an alias does.
* `Console.Does.of_error`: an action that fails has changed nothing.
* `Console.failure_atomic`: the lines and the operations that fail.
-/

namespace CommandConsole

variable {τ : Type}

/-! ### The wording of errors -/

theorem indentContinuation_eq_self {cs : List Char} (h : '\n' ∉ cs) :
    indentContinuation cs = cs := by
  induction cs with
  | nil => rfl
  | cons c cs ih =>
    rw [List.mem_cons, not_or] at h
    unfold indentContinuation
    rw [if_neg (Ne.symm h.1), ih h.2]

/-- A text on one line without blanks at its ends is shown as it is. -/
theorem Output.line_eq_text {front behind : String} {c : Char}
    (hfirst : front.toList.head? = some c) (hc : Text.isBlank c = false)
    (hlast : Text.EndsSolid behind) (hfront : '\n' ∉ front.toList) (hbehind : '\n' ∉ behind.toList)
    (emphasis : Emphasis) :
    Output.line emphasis (front ++ behind) = .text emphasis (front ++ behind) := by
  have htrim : Text.trim (front ++ behind) = front ++ behind :=
    Text.trim_eq_self (by simp [hfirst]) hc (hlast.behind front)
  have hchars : Text.trimChars (front ++ behind).toList = (front ++ behind).toList := by
    rw [← Text.toList_trim, htrim]
  unfold Output.line
  rw [hchars, indentContinuation_eq_self (by simp [hfront, hbehind]), String.ofList_toList]

namespace ConsoleError

/-- An error about what a user typed, with nothing in it that breaks a line. -/
def Plain : ConsoleError → Prop
  | dispatchRejected => True
  | unknownAlias name | invalidHook name | reservedName name => '\n' ∉ name.toList
  | invalidArgument reason => '\n' ∉ reason.toList ∧ Text.EndsSolid reason
  | _ => False

theorem Plain.isStartup_eq {e : ConsoleError} (h : e.Plain) : e.isStartup = false := by
  cases e <;> first | rfl | exact h.elim

/-- The wording of such an error is one line that is shown as it is. -/
theorem Plain.line_eq {e : ConsoleError} (h : e.Plain) (emphasis : Emphasis) :
    Output.line emphasis e.message = .text emphasis e.message := by
  have quoted {front name behind : String} {c : Char} (hname : '\n' ∉ name.toList)
      (hfirst : front.toList.head? = some c) (hc : Text.isBlank c = false)
      (hfront : '\n' ∉ front.toList) (hlast : Text.EndsSolid behind)
      (hbehind : '\n' ∉ behind.toList) : Output.line emphasis (front ++ name ++ behind) =
        .text emphasis (front ++ name ++ behind) :=
    Output.line_eq_text (by simp [hfirst]) hc hlast (by simp [hname, hfront]) hbehind emphasis
  cases e with
  | dispatchRejected => exact congrArg (Output.text emphasis) (by decide +kernel)
  | unknownAlias name =>
    exact quoted h rfl (by decide) (by decide) ⟨_, rfl, by decide⟩ (by decide)
  | invalidHook name =>
    exact quoted h rfl (by decide) (by decide) ⟨_, rfl, by decide⟩ (by decide)
  | reservedName name =>
    exact quoted h rfl (by decide) (by decide) ⟨_, rfl, by decide⟩ (by decide)
  | invalidArgument reason =>
    exact Output.line_eq_text rfl (by decide) h.2 (by decide) h.1 emphasis
  | _ => exact h.elim

theorem plain_outOfRange {text : String} (h : '\n' ∉ text.toList) :
    (Builtins.outOfRange text).Plain := by
  refine ⟨?_, Text.EndsSolid.behind ⟨_, rfl, by decide⟩ _⟩
  show '\n' ∉ ("'" ++ text ++ "' is out of range").toList
  simp [h]

/-- A number is written in digits. -/
theorem plain_missing (index : Nat) :
    (invalidArgument s!"missing argument {index}").Plain := by
  have hchars : (toString index).toList = Nat.toDigits 10 index := Nat.toList_repr
  have hdigit : ∀ c ∈ (toString index).toList, c.isDigit = true := fun c hc =>
    Nat.isDigit_of_mem_toDigits (by omega) (by omega) (hchars ▸ hc)
  have hne : (toString index).toList ≠ [] := hchars ▸ Nat.toDigits_ne_nil
  refine ⟨?_, Text.EndsSolid.behind ⟨_, List.getLast?_eq_some_getLast hne,
    Text.isBlank_of_isDigit (hdigit _ (List.getLast_mem hne))⟩ _⟩
  show '\n' ∉ ("missing argument " ++ toString index).toList
  have hbreak : '\n' ∉ (toString index).toList := fun hm => absurd (hdigit _ hm) (by decide)
  simpa using hbreak

/-- An error about a name on one line. -/
theorem Concerns.plain {name : String} {e : ConsoleError} (h : e.Concerns name)
    (hn : '\n' ∉ name.toList) : e.Plain := by
  have htrim : '\n' ∉ (Text.trim name).toList := by
    rw [Text.toList_trim]
    exact fun hm => hn (Text.mem_of_mem_trimChars hm)
  cases h with
  | blank => exact ⟨by decide, _, rfl, by decide⟩
  | _ => exact htrim

theorem Concerns.isStartup_eq {name : String} {e : ConsoleError} (h : e.Concerns name) :
    e.isStartup = false := by
  cases h <;> rfl

end ConsoleError

/-! ### What a line does -/

open Builtins

variable [Seconds τ]

namespace Console

/-- The line is resolved to the handler with this declared signature, and gives these values. -/
def Invokes (c : Console τ) (grammar : Grammar) (line : String) (values : List String) : Prop :=
  ∃ command binding, c.registry.resolve (Text.trim line) = some (.invoke command binding values) ∧
    grammar.compile = .ok binding.signature

omit [Seconds τ] in
/-- A line that is resolved to another signature, or to none, does not invoke the handler. -/
theorem not_invokes_of_all {c : Console τ} {raw line : String}
    (h : ((c.registry.resolve (Text.trim line)).all fun
      | .help _ => true
      | .invoke _ binding _ => binding.signature.raw != raw) = true) :
    ∀ values, ¬ c.Invokes (.written raw) line values := by
  rintro values ⟨command, binding, hr, hg⟩
  obtain ⟨tokens, -, -, hsignature⟩ := Signature.exists_of_compile hg
  have hraw : binding.signature.raw = raw := congrArg Signature.raw hsignature
  rw [hr] at h
  simp [hraw] at h

/-- What a line that is not an alias does. -/
inductive Does (c : Console τ) (line : String) : Action τ Unit → Prop
  | blank : Does c line (.done ())
  | rejected : Does c line (.fail .dispatchRejected)
  | help (text : String) : Does c line (.info text)
  /-- Its values stand on one line. -/
  | handler {grammar : Grammar} {values : List String} {a : Action τ Unit} :
      c.Invokes grammar line values → (∀ v ∈ values, '\n' ∉ v.toList) → Acts grammar values a →
      Does c line a

variable {c : Console τ} {line : String} {s t : Session τ} {a : Action τ Unit}

/-- A line that invokes a handler acts on its values, which stand on one line. -/
theorem IsBuiltin.acts (hc : c.IsBuiltin) {command : Command (Handler τ)}
    {binding : Binding (Handler τ)} {values : List String}
    (h : c.registry.resolve (Text.trim line) = some (.invoke command binding values)) :
    c.Does line (binding.handler values) := by
  obtain ⟨hm, hb, hv⟩ := Registry.captures?_of_resolve h
  obtain ⟨d, hd, sd, hs, hg, hh⟩ := Registry.exists_decl_of_mem hc hm hb
  refine .handler ⟨command, binding, h, hg⟩ ?_ (Acts.of_mem hd hs hh values)
  obtain ⟨raw, hraw⟩ := exists_written hd hs
  rw [hraw] at hg
  obtain ⟨tokens, -, hne, hsignature⟩ := Signature.exists_of_compile hg
  rw [hsignature] at hv
  obtain ⟨⟨pieces, hfilling, -⟩, -⟩ := Signature.fills_of_captures? hne hv
  intro v hmem
  obtain ⟨kind, htakes⟩ := hfilling.exists_takes v hmem
  exact htakes.not_lineBreak

/-- A line that is no alias asks for what the handler does that it is resolved to. -/
theorem exists_note_of_resolve (hne : Text.trim line ≠ "") {command : Command (Handler τ)}
    {binding : Binding (Handler τ)} {values : List String}
    (h : c.registry.resolve (Text.trim line) = some (.invoke command binding values)) :
    ∃ note, ∀ s : Session τ, s.aliases.lookup line = none →
      c.request line s = (binding.handler values).request c (s.record note) := by
  let shown := binding.signature.display
  let text := Text.trim line
  refine ⟨.debug s!"Dispatching '{text}' to {command.name} [{shown}]", fun s hs => ?_⟩
  unfold request
  dsimp only
  rw [if_neg hne, AliasTable.expand_trim_eq_none hs, h]

/-- **One action**: a line that is not an alias does one thing, and notes it in the log. -/
theorem IsBuiltin.exists_does (hc : c.IsBuiltin) (line : String) :
    ∃ a notes, c.Does line a ∧ ∀ s : Session τ, s.aliases.lookup line = none →
      c.request line s = a.request c { s with log := notes ++ s.log } := by
  by_cases hb : Text.trim line = ""
  · exact ⟨_, [], .blank, fun s _ => if_pos hb⟩
  · cases hr : c.registry.resolve (Text.trim line) with
    | none =>
      refine ⟨_, [], .rejected, fun s hs => ?_⟩
      unfold request
      dsimp only
      rw [if_neg hb, AliasTable.expand_trim_eq_none hs, hr]
      rfl
    | some resolution =>
      cases resolution with
      | help command =>
        refine ⟨_, [], .help command.helpText, fun s hs => ?_⟩
        unfold request
        dsimp only
        rw [if_neg hb, AliasTable.expand_trim_eq_none hs, hr]
        rfl
      | invoke command binding values =>
        obtain ⟨note, hnote⟩ := exists_note_of_resolve hb hr
        exact ⟨_, [note], hc.acts hr, hnote⟩

theorem Does.direct (h : c.Does line a) (hx : ∀ values, ¬ c.Invokes execGrammar line values) :
    a.Direct := by
  cases h with
  | blank => trivial
  | rejected => rfl
  | help => exact Action.direct_doing _
  | handler hinvokes _ hacts =>
    rcases hacts.direct_or with hdirect | ⟨rfl, -⟩
    · exact hdirect
    · exact absurd hinvokes (hx _)

/-- A line that is neither an alias nor run by `exec` ends with the effect of its action. -/
theorem IsBuiltin.exists_effect (hc : c.IsBuiltin)
    (hx : ∀ values, ¬ c.Invokes execGrammar line values) :
    ∃ a notes, c.Does line a ∧ ∀ s : Session τ, s.aliases.lookup line = none → ∀ outcome t,
      a.effect c { s with log := notes ++ s.log } = (outcome, t) →
        c.Returns (.dispatch line) s outcome t := by
  obtain ⟨a, notes, hdoes, hrequest⟩ := hc.exists_does line
  refine ⟨a, notes, hdoes, fun s hs outcome t he => .of_ends hc ?_⟩
  rw [hrequest s hs, (hdoes.direct hx).request_eq, he]

/-- An action that fails has changed nothing. -/
theorem Does.of_error (h : c.Does line a) (hx : ∀ values, ¬ c.Invokes execGrammar line values)
    {e : ConsoleError} (he : a.effect c s = (.error e, t)) : t = s ∧ e.Plain := by
  cases h with
  | blank | help => cases he
  | rejected =>
    cases he
    exact ⟨rfl, trivial⟩
  | handler hinvokes hvalues hacts =>
    cases hacts with
    | missing index =>
      cases he
      exact ⟨rfl, ConsoleError.plain_missing index⟩
    | outOfRange hmem =>
      cases he
      exact ⟨rfl, ConsoleError.plain_outOfRange (hvalues _ hmem)⟩
    | lists => cases he
    | delays => cases he
    | runs hg =>
      subst hg
      exact absurd hinvokes (hx _)
    | @performs p _ hnamed =>
      have hp : p.apply c.config s = (.error e, t) := by
        rw [Action.effect_doing] at he
        exact he
      obtain ⟨rfl, name, hname, hconcerns⟩ := Primitive.of_error hp
      refine ⟨rfl, hconcerns.plain ?_⟩
      rcases hnamed name hname with hmem | ⟨hook, rfl⟩
      · exact hvalues name hmem
      · cases hook <;> decide

/-- **Failures**: a line that is not an alias and does not run `exec` leaves the session as it is
if it fails, but for the log; entered, it shows the error in one line and does nothing else. An
operation of the console that fails changes nothing. None of these errors stops the console. -/
theorem failure_atomic (hc : c.IsBuiltin) (s : Session τ) :
    (∀ line, s.aliases.lookup line = none → (∀ values, ¬ c.Invokes execGrammar line values) →
      ∀ e t, c.Returns (.dispatch line) s (.error e) t →
        e.isStartup = false ∧ t = { s with log := t.log } ∧
        ∀ outcome u, c.Returns (.execute line) s outcome u ↔ outcome = .ok () ∧
          u = { s with
            emitted := .text .error e.message :: s.emitted
            log := .debug s!"Dispatch failed: {e.message}" :: t.log }) ∧
    ∀ (p : Primitive τ) e t, c.Returns (.primitive p) s (.error e) t →
      e.isStartup = false ∧ t = s := by
  constructor
  · intro line hs hx e t hr
    obtain ⟨a, notes, hdoes, heffect⟩ := hc.exists_effect hx
    obtain ⟨he, ht⟩ := (heffect s hs _ _ rfl).unique hr
    obtain ⟨rfl, hplain⟩ := hdoes.of_error hx (Prod.ext he ht)
    have hentered := returns_execute.mpr ⟨rfl, _, _, hr, rfl⟩
    refine ⟨hplain.isStartup_eq, rfl, fun outcome u => ?_⟩
    rw [← hplain.line_eq]
    exact hentered.iff_of_returns outcome u
  · intro p e t hr
    obtain ⟨rfl, name, -, hconcerns⟩ := Primitive.of_error (returns_primitive.mp hr)
    exact ⟨hconcerns.isStartup_eq, rfl⟩

/-- A line about an alias that there is not, and a name that cannot be one. -/
theorem failure_atomic_unknown :
    let c := exact Config.standard
    let s := Session.remembering c.config (TextMap.empty.insert "a" "print 1")
    let line := "  alias print ghost "
    s.aliases.lookup line = none ∧ (∀ values, ¬ c.Invokes execGrammar line values) ∧
      (∃ t, c.Returns (.dispatch line) s (.error (.unknownAlias "ghost")) t ∧
        t = { s with log := t.log } ∧ ∃ log, c.Returns (.execute line) s (.ok ())
          { s with emitted := [.text .error "unknown alias 'ghost'"], log }) ∧
      ∀ t, c.Returns (.primitive (.registerAlias " all " "print 2")) s
        (.error (.reservedName "all")) t → t = s := by
  intro c s line
  obtain ⟨hline, hprimitive⟩ := failure_atomic (isBuiltin_exact Config.standard) s
  have halias : s.aliases.lookup line = none := by decide +kernel
  have hexec : ∀ values, ¬ c.Invokes execGrammar line values :=
    not_invokes_of_all (by decide +kernel)
  have h : ∃ r ∈ c.perform 2 (.dispatch line) s, r.1 = .error (.unknownAlias "ghost") := by
    decide +kernel
  obtain ⟨⟨_, t⟩, ht, rfl⟩ := h
  obtain ⟨-, hsame, hentered⟩ := hline line halias hexec _ t ⟨2, ht⟩
  exact ⟨halias, hexec, ⟨t, ⟨2, ht⟩, hsame, _, (hentered _ _).mpr ⟨rfl, rfl⟩⟩,
    fun u hu => (hprimitive _ _ u hu).2⟩

end Console

end CommandConsole

import CommandConsole.Builtins
import CommandConsole.Proofs.Action
import CommandConsole.Proofs.Registry

/-!
# CommandConsole.Proofs.Builtins — what the built-in handlers do

A built-in handler acts directly. The one exception is `exec`, which runs the statements of its
value and does nothing else; its value is shorter than the line.

* `Builtins.Acts`, `Builtins.Acts.of_mem`: what built-in handlers can do, by one case for each.
* `Builtins.conforms_of_mem`: the two kinds of built-in handlers.
* `Console.IsBuiltin`: the commands of a console are the built-in ones.
* `Console.IsBuiltin.handler_cases`: what a line that invokes a handler does.
-/

namespace CommandConsole

variable {τ α : Type}

/-! ### The built-in handlers -/

namespace Builtins

/-- The declared signature of `exec`. -/
def execGrammar : Grammar := .written "exec <commands:s>"

/-- The declared signature of `delay`. -/
def delayGrammar : Grammar := .written "delay <seconds:i>"

/-- The action of `help`: it shows one line for each command. -/
def listing : Action τ Unit :=
  Action.look fun v => (Action.info ("\n".intercalate (v.registry.commands.map summary))).bind
    fun _ => Action.info "Type '<command> ?' or 'help <command>' for its signatures"

/-- What a built-in handler can do, given its signature and the values of a line. -/
inductive Acts [Seconds τ] (grammar : Grammar) (values : List String) : Action τ Unit → Prop
  | missing (index : Nat) :
      Acts grammar values (.fail (.invalidArgument s!"missing argument {index}"))
  | outOfRange {text : String} : text ∈ values → Acts grammar values (.fail (outOfRange text))
  | lists : Acts grammar values listing
  /-- Names are values of the line, or the console's own names of hooks. -/
  | performs {p : Primitive τ} : (∀ amount, p ≠ .requestDelay amount) →
      (∀ name ∈ p.named, name ∈ values ∨ ∃ hook : LifecycleHook, name = hook.name) →
      Acts grammar values (.doing p)
  | delays {text : String} {amount : τ} : grammar = delayGrammar → values[0]? = some text →
      Seconds.read? text = some amount → Acts grammar values (.doing (.requestDelay amount))
  | runs {text : String} : grammar = execGrammar → values[0]? = some text →
      Acts grammar values (.call (.runSequence text))

namespace Acts

variable [Seconds τ] {grammar : Grammar} {values : List String}

/-- A handler that takes a value fails without it. -/
theorem value (index : Nat) {f : String → Action τ Unit}
    (h : ∀ text, values[index]? = some text → Acts grammar values (f text)) :
    Acts grammar values ((Builtins.value values index).bind f) := by
  unfold Builtins.value
  cases hv : values[index]? with
  | none => exact missing index
  | some text => exact h text hv

/-- A handler that reads a value fails if it cannot be read. -/
theorem parsed (read? : String → Option α) {text : String} (ht : text ∈ values)
    {f : α → Action τ Unit} (h : ∀ x, read? text = some x → Acts grammar values (f x)) :
    Acts grammar values ((Builtins.parsed read? text).bind f) := by
  unfold Builtins.parsed
  cases hr : read? text with
  | none => exact outOfRange ht
  | some x => exact h x hr

/-- **Handlers**: what each built-in handler does. -/
theorem of_mem {d : CommandDecl (Handler τ)} (hd : d ∈ all) {sd : SignatureDecl (Handler τ)}
    (hs : sd ∈ d.signatures) {handler : Handler τ} (hh : sd.handler = some handler)
    (values : List String) : Acts sd.grammar values (handler values) := by
  suffices h : ∀ sd ∈ d.signatures, ∀ handler ∈ sd.handler,
      Acts sd.grammar values (handler values) from h sd hs handler hh
  -- operations that look up no name, a value of the line, or the name of a hook
  have first {index : Nat} {text : String} (h : values[index]? = some text) : text ∈ values :=
    List.mem_of_getElem? h
  have plain {grammar : Grammar} {p : Primitive τ} (hp : ∀ amount, p ≠ .requestDelay amount)
      (hn : p.named = []) : Acts grammar values (.doing p) :=
    performs hp (by simp [hn])
  have about {grammar : Grammar} {p : Primitive τ} {index : Nat} {text : String}
      (h : values[index]? = some text) (hp : ∀ amount, p ≠ .requestDelay amount)
      (hn : p.named = [text]) : Acts grammar values (.doing p) :=
    performs hp (by simpa [hn] using Or.inl (first h))
  have bound {grammar : Grammar} (hook : LifecycleHook) (text : String) :
      Acts grammar values (.doing (.registerEvent hook.name text) : Action τ Unit) :=
    performs nofun (by simp [Primitive.named])
  simp only [all, List.mem_cons, List.not_mem_nil, or_false] at hd
  rcases hd with rfl | rfl | rfl | rfl | rfl | rfl | rfl | rfl | rfl | rfl
  all_goals
    simp only [help, print, clear, showPanel, hidePanel, aliases, events, fontSize, delay, exec,
      signature, List.forall_mem_cons, List.not_mem_nil, false_implies, implies_true, and_true,
      Option.mem_def, Option.some.injEq, forall_eq']
  · exact lists
  · exact value 0 fun _ _ => plain nofun rfl
  · exact plain nofun rfl
  · exact plain nofun rfl
  · exact plain nofun rfl
  · refine ⟨?_, ?_, ?_⟩
    · exact value 0 fun _ h => value 1 fun _ _ => about h nofun rfl
    · exact value 0 fun _ h => about h nofun rfl
    · exact value 0 fun _ _ => plain nofun rfl
  · refine ⟨?_, ?_, ?_, ?_⟩
    · exact value 0 fun text _ => bound .onStartup text
    · exact value 0 fun text _ => bound .onShutdown text
    · exact value 0 fun _ h => about h nofun rfl
    · exact plain nofun rfl
  · refine ⟨plain nofun rfl, ?_⟩
    exact value 0 fun _ h => parsed fontSize? (first h) fun _ _ => plain nofun rfl
  · exact value 0 fun _ h => parsed Seconds.read? (first h) fun _ hr => delays rfl h hr
  · exact value 0 fun _ h => runs rfl h

/-- Every built-in handler acts directly, but for that of `exec`. -/
theorem direct_or {a : Action τ Unit} (h : Acts grammar values a) : a.Direct ∨
    (grammar = execGrammar ∧
      ∃ text, values[0]? = some text ∧ a = Action.call (.runSequence text)) := by
  cases h with
  | missing | outOfRange => exact Or.inl rfl
  | performs | delays => exact Or.inl (Action.direct_doing _)
  | runs hg ht => exact Or.inr ⟨hg, _, ht, rfl⟩
  | lists =>
    refine Or.inl ⟨fun v w hvw => ?_, fun v => ?_⟩
    · simp only [hvw]
    · exact (Action.direct_doing _).bind fun _ => Action.direct_doing _

end Acts

/-- The signatures of built-in commands are written as words and placeholders. -/
theorem exists_written [Seconds τ] {d : CommandDecl (Handler τ)} (hd : d ∈ all)
    {sd : SignatureDecl (Handler τ)} (hs : sd ∈ d.signatures) :
    ∃ raw, sd.grammar = .written raw := by
  revert sd hs
  simp only [all, List.mem_cons, List.not_mem_nil, or_false] at hd
  rcases hd with rfl | rfl | rfl | rfl | rfl | rfl | rfl | rfl | rfl | rfl
  all_goals
    simp [help, print, clear, showPanel, hidePanel, aliases, events, fontSize, delay, exec,
      signature]

/-- The handler of a declared signature acts directly, or is that of `exec` and runs its value. -/
def Conforms (sd : SignatureDecl (Handler τ)) : Prop :=
  ∀ handler, sd.handler = some handler → ∀ values, (handler values).Direct ∨
    (sd.grammar = execGrammar ∧
      ∃ text, values[0]? = some text ∧ handler values = Action.call (.runSequence text))

theorem conforms_of_mem [Seconds τ] {d : CommandDecl (Handler τ)} (hd : d ∈ all)
    {sd : SignatureDecl (Handler τ)} (hs : sd ∈ d.signatures) : Conforms sd :=
  fun _ hh values => (Acts.of_mem hd hs hh values).direct_or

end Builtins

/-! ### The value of `exec` -/

namespace Template

/-- A template that reads a character first has it at the start of the first text. -/
theorem exists_cons_of_split? {set : CharSet} {steps : Template} {cs : List Char}
    {texts : List (List Char)} (h : split? (.one set :: steps) cs = some texts) :
    ∃ c text rest, texts = (c :: text) :: rest := by
  cases cs with
  | nil => simp [split?] at h
  | cons c cs =>
    rw [split?] at h
    split at h
    · obtain ⟨texts', -, rfl⟩ := Option.map_eq_some_iff.mp h
      cases texts' with
      | nil => exact ⟨c, [], [], rfl⟩
      | cons text rest => exact ⟨c, text, rest, rfl⟩
    · cases h

end Template

/-- A value is shorter than its line if the line has to start with some other character. -/
theorem length_lt_of_captures? {set : CharSet} {steps : Template} {line text : String}
    {values : List String} (h : (LineRule.written (.one set :: steps)).captures? line = some values)
    (ht : values[0]? = some text) : text.length < line.length := by
  obtain ⟨texts, hs, rfl⟩ := Option.map_eq_some_iff.mp h
  rw [Template.splitLine?_eq_split?] at hs
  have hflat : texts.flatten = line.toList := Template.flatten_of_split? hs
  obtain ⟨c, first, rest, rfl⟩ := Template.exists_cons_of_split? hs
  cases rest with
  | nil => simp [LineRule.everyOther] at ht
  | cons value rest =>
    obtain rfl : String.ofList value = text := by simpa [LineRule.everyOther] using ht
    rw [String.length_ofList, ← String.length_toList (s := line), ← hflat]
    simp only [List.flatten_cons, List.length_append, List.length_cons]
    omega

/-- The lines of `exec` start with its name. -/
theorem Builtins.rule_exec : ∃ signature, execGrammar.compile = .ok signature ∧
    ∃ steps, signature.rule = .written (.one (.only 'e') :: steps) :=
  ⟨_, rfl, _, rfl⟩

/-! ### Consoles with the built-in commands -/

namespace Console

variable [Seconds τ]

/-- The commands of the console are the built-in ones. -/
def IsBuiltin (c : Console τ) : Prop := Registry.build Builtins.all = .ok c.registry

/-- **Built-in commands**: a line that invokes a handler acts directly, or it is run by `exec`,
whose text is shorter than the line. -/
theorem IsBuiltin.handler_cases {c : Console τ} (hc : c.IsBuiltin) {line : String}
    {command : Command (Handler τ)} {binding : Binding (Handler τ)} {values : List String}
    (h : c.registry.resolve line = some (.invoke command binding values)) :
    (binding.handler values).Direct ∨
      ∃ text, binding.handler values = Action.call (.runSequence text) ∧
        text.length < line.length := by
  obtain ⟨hm, hb, hv⟩ := Registry.captures?_of_resolve h
  obtain ⟨d, hd, sd, hs, hg, hh⟩ := Registry.exists_decl_of_mem hc hm hb
  rcases Builtins.conforms_of_mem hd hs binding.handler hh values with hdirect | ⟨he, text, ht, hx⟩
  · exact Or.inl hdirect
  · refine Or.inr ⟨text, hx, ?_⟩
    obtain ⟨signature, hsig, steps, hr⟩ := Builtins.rule_exec
    rw [← he, hg] at hsig
    obtain rfl : binding.signature = signature := Except.ok.inj hsig
    unfold Signature.captures? at hv
    rw [hr] at hv
    exact length_lt_of_captures? hv ht

end Console

end CommandConsole

import CommandConsole.Proofs.Helping
import CommandConsole.Proofs.Registry

/-!
# CommandConsole.Proofs.Building — which declarations make a registry

Declarations make a registry if their names are distinct when trimmed, and each of their signatures
can be compiled and has a handler. Then every declaration is in it, in the order of the list, and in
each of them every signature. Otherwise the first fault is reported: of the declarations in their
order, of each its name and then its signatures in their order, of each its grammar and then its
handler.

* `SignatureDecl.Fault`, `Registry.Fault`: what can be wrong with a signature and a declaration.
* `SignatureDecl.Makes`, `CommandDecl.Makes`: what is made of them.
* `SignatureDecl.build_eq_error_iff`, `CommandDecl.build_eq_error_iff`: one signature, one command.
* `Registry.build_all_or_nothing`: all of them.
-/

namespace CommandConsole

variable {η : Type}

/-! ### Signatures -/

namespace Grammar

/-- Lines can be given this way: the text is a signature, or the pattern can be read between the
ends of a line. -/
def Valid : Grammar → Prop
  | written text => ∃ signature, Signature.compile text = .ok signature
  | custom pattern _ => ∃ p, Pattern.read ("^(?:" ++ pattern ++ ")$").toList = .ok p

theorem exists_compile_iff {g : Grammar} : (∃ signature, g.compile = .ok signature) ↔ g.Valid := by
  cases g with
  | written text => rfl
  | custom pattern display =>
    show (∃ signature, Signature.custom pattern display = .ok signature) ↔ ∃ p, _ = _
    unfold Signature.custom
    dsimp only
    cases Pattern.read ("^(?:" ++ pattern ++ ")$").toList <;> simp

theorem compile_custom_eq_error_iff {pattern display : String} {e : ConsoleError} :
    (custom pattern display).compile = .error e ↔
      ∃ fault, Pattern.read ("^(?:" ++ pattern ++ ")$").toList = .error fault ∧
        e = .customMatcher display fault.message := by
  show Signature.custom pattern display = .error e ↔ _
  unfold Signature.custom
  dsimp only
  cases Pattern.read ("^(?:" ++ pattern ++ ")$").toList <;> simp [eq_comm]

theorem isStartup_of_compile {g : Grammar} {e : ConsoleError} (h : g.compile = .error e) :
    e.isStartup = true := by
  cases g with
  | written text =>
    change Signature.compile text = .error e at h
    unfold Signature.compile at h
    split at h <;> cases h <;> rfl
  | custom pattern display =>
    obtain ⟨fault, -, rfl⟩ := compile_custom_eq_error_iff.mp h
    rfl

end Grammar

namespace SignatureDecl

variable {d : SignatureDecl η} {b : Binding η} {command : String} {e : ConsoleError}

/-- The signature can be compiled and has a handler. -/
structure Sound (d : SignatureDecl η) : Prop where
  valid : d.grammar.Valid
  bound : ∃ handler, d.handler = some handler

/-- The binding is the declared signature with its hint and its handler. -/
structure Makes (d : SignatureDecl η) (b : Binding η) : Prop where
  signature : d.grammar.compile = .ok b.signature
  hint : b.hint = d.hint
  handler : d.handler = some b.handler

/-- What is wrong with a signature of this command; its handler comes into it only if it can be
compiled. -/
inductive Fault (command : String) (d : SignatureDecl η) : ConsoleError → Prop
  | invalid {e : ConsoleError} : d.grammar.compile = .error e → Fault command d e
  | unresolved : d.grammar.Valid → d.handler = none →
      Fault command d (.unresolvedHandler command d.grammar.source)

theorem build_eq_ok_iff_makes : d.build command = .ok b ↔ d.Makes b :=
  build_eq_ok_iff.trans ⟨fun ⟨hs, hh, hb⟩ => ⟨hs, hh, hb⟩, fun ⟨hs, hh, hb⟩ => ⟨hs, hh, hb⟩⟩

theorem exists_makes_iff : (∃ b, d.Makes b) ↔ d.Sound := by
  constructor
  · rintro ⟨b, hsignature, -, hhandler⟩
    exact ⟨Grammar.exists_compile_iff.mp ⟨_, hsignature⟩, _, hhandler⟩
  · rintro ⟨hvalid, handler, hhandler⟩
    obtain ⟨signature, hsignature⟩ := Grammar.exists_compile_iff.mpr hvalid
    exact ⟨⟨signature, d.hint, handler⟩, hsignature, rfl, hhandler⟩

theorem build_eq_error_iff : d.build command = .error e ↔ d.Fault command e := by
  unfold build
  rw [bind_eq_error_iff]
  constructor
  · rintro (hinvalid | ⟨signature, hsignature, herror⟩)
    · exact .invalid hinvalid
    · split at herror
      · cases herror
      · next hnone =>
        cases herror
        exact .unresolved (Grammar.exists_compile_iff.mp ⟨signature, hsignature⟩) hnone
  · rintro (hinvalid | ⟨hvalid, hnone⟩)
    · exact .inl hinvalid
    · obtain ⟨signature, hsignature⟩ := Grammar.exists_compile_iff.mpr hvalid
      refine .inr ⟨signature, hsignature, ?_⟩
      rw [hnone]
      rfl

theorem Fault.isStartup_eq (h : d.Fault command e) : e.isStartup = true := by
  cases h with
  | invalid herror => exact Grammar.isStartup_of_compile herror
  | unresolved => rfl

end SignatureDecl

/-! ### Commands -/

namespace CommandDecl

variable {d : CommandDecl η} {c : Command η} {e : ConsoleError}

/-- The command has the declared name, trimmed, the description, and the signatures in order. -/
structure Makes (d : CommandDecl η) (c : Command η) : Prop where
  name : c.name = d.trimmedName
  description : c.description = d.description
  bindings : List.Forall₂ SignatureDecl.Makes d.signatures c.bindings

/-- What is wrong with the first signature that is not sound. -/
def Fault (d : CommandDecl η) (e : ConsoleError) : Prop :=
  ∃ front sd rest, d.signatures = front ++ sd :: rest ∧ (∀ earlier ∈ front, earlier.Sound) ∧
    sd.Fault d.trimmedName e

theorem build_eq_ok_iff_makes : d.build = .ok c ↔ d.Makes c := by
  rw [build_eq_ok_iff]
  simp only [SignatureDecl.build_eq_ok_iff_makes]
  exact ⟨fun ⟨hn, hd, hb⟩ => ⟨hn, hd, hb⟩, fun ⟨hn, hd, hb⟩ => ⟨hn, hd, hb⟩⟩

theorem build_eq_error_iff : d.build = .error e ↔ d.Fault e := by
  have hbuild : d.build = .error e ↔
      d.signatures.mapM (·.build d.trimmedName) = .error e := by
    unfold build
    rw [bind_eq_error_iff]
    simp [pure, Except.pure]
  rw [hbuild, mapM_eq_error_iff]
  simp only [SignatureDecl.build_eq_ok_iff_makes, SignatureDecl.exists_makes_iff,
    SignatureDecl.build_eq_error_iff]
  rfl

theorem exists_makes_iff : (∃ c, d.Makes c) ↔ ∀ sd ∈ d.signatures, sd.Sound := by
  simp only [← SignatureDecl.exists_makes_iff, ← exists_forall₂_iff]
  constructor
  · rintro ⟨c, -, -, hbindings⟩
    exact ⟨c.bindings, hbindings⟩
  · rintro ⟨bindings, hbindings⟩
    exact ⟨⟨d.trimmedName, d.description, bindings⟩, rfl, rfl, hbindings⟩

theorem Fault.isStartup_eq (h : d.Fault e) : e.isStartup = true := by
  obtain ⟨_, _, _, -, -, hfault⟩ := h
  exact hfault.isStartup_eq

end CommandDecl

/-! ### Registries -/

namespace Registry

variable {ds front : List (CommandDecl η)} {d : CommandDecl η} {r : Registry η} {e : ConsoleError}

/-- The names are distinct when trimmed, and every signature is sound. -/
structure Sound (ds : List (CommandDecl η)) : Prop where
  distinct : (ds.map (·.trimmedName)).Nodup
  signatures : ∀ d ∈ ds, ∀ sd ∈ d.signatures, sd.Sound

/-- What is wrong with a declaration behind others; its signatures come into it only if its name is
not that of one of the others. -/
inductive Fault (front : List (CommandDecl η)) (d : CommandDecl η) : ConsoleError → Prop
  | duplicate : d.trimmedName ∈ front.map (·.trimmedName) →
      Fault front d (.duplicateCommand d.trimmedName)
  | signature {e : ConsoleError} : d.trimmedName ∉ front.map (·.trimmedName) → d.Fault e →
      Fault front d e

/-- What is wrong with the first declaration that has a fault. -/
def FirstFault (ds : List (CommandDecl η)) (e : ConsoleError) : Prop :=
  ∃ front d rest, ds = front ++ d :: rest ∧ Sound front ∧ Fault front d e

theorem build_eq_ok_iff_makes : build ds = .ok r ↔
    (ds.map (·.trimmedName)).Nodup ∧ List.Forall₂ CommandDecl.Makes ds r.commands := by
  rw [build_eq_ok_iff]
  simp only [CommandDecl.build_eq_ok_iff_makes]

theorem exists_build_iff : (∃ r, build ds = .ok r) ↔ Sound ds := by
  simp only [build_eq_ok_iff_makes]
  constructor
  · rintro ⟨r, hnodup, hcommands⟩
    refine ⟨hnodup, fun d hd => CommandDecl.exists_makes_iff.mp ?_⟩
    exact exists_forall₂_iff.mp ⟨_, hcommands⟩ d hd
  · rintro ⟨hnodup, hsound⟩
    obtain ⟨commands, hcommands⟩ := exists_forall₂_iff.mpr fun d hd =>
      CommandDecl.exists_makes_iff.mpr (hsound d hd)
    exact ⟨⟨commands⟩, hnodup, hcommands⟩

theorem build_eq_error_iff : build ds = .error e ↔ FirstFault ds e := by
  have hsound (front : List (CommandDecl η)) :
      (∃ cs, buildAfter [] front = .ok cs) ↔ Sound front := by
    rw [← exists_build_iff]
    simp [build, map_eq_ok_iff]
  have hfault (front : List (CommandDecl η)) (d : CommandDecl η) :
      (d.trimmedName ∈ front.map (·.trimmedName) ∧ e = .duplicateCommand d.trimmedName ∨
        d.trimmedName ∉ front.map (·.trimmedName) ∧ d.build = .error e) ↔ Fault front d e := by
    rw [CommandDecl.build_eq_error_iff]
    constructor
    · rintro (⟨hname, rfl⟩ | ⟨hname, hfault⟩)
      · exact .duplicate hname
      · exact .signature hname hfault
    · rintro (hname | ⟨hname, hfault⟩)
      · exact .inl ⟨hname, rfl⟩
      · exact .inr ⟨hname, hfault⟩
  unfold build FirstFault
  rw [map_eq_error_iff, buildAfter_eq_error_iff]
  simp only [hsound, List.append_nil, hfault]

theorem Fault.isStartup_eq (h : Fault front d e) : e.isStartup = true := by
  cases h with
  | duplicate => rfl
  | signature _ hfault => exact hfault.isStartup_eq

/-- **All or nothing.** Declarations make a registry if and only if their names are distinct when
trimmed, and each of their signatures can be compiled and has a handler. The registry has a command
for every declaration in turn, and the command a binding for every signature in turn. Otherwise the
error is that of the first fault, and one that stops the console before it runs. Requests for help
are no source of errors: whatever the name of a command is, the pattern of the requests can be
read, nothing but its size can be held against it, and it matches these lines and no others. -/
theorem build_all_or_nothing (ds : List (CommandDecl η)) :
    ((∃ r, build ds = .ok r) ↔ Sound ds) ∧
      (∀ r, build ds = .ok r → List.Forall₂ CommandDecl.Makes ds r.commands) ∧
      (∀ e, build ds = .error e ↔ FirstFault ds e) ∧
      (∀ e, build ds = .error e → e.isStartup = true) ∧
      ∀ c : Command η, ∃ e, Pattern.Expr.read (Command.helpPattern c.name).toList = .ok e ∧
        Pattern.read (Command.helpPattern c.name).toList =
          (if Pattern.fits e then .ok e.toPattern else .error .tooLarge) ∧
        ∀ line, (e.toPattern.find? line).isSome = c.isHelpRequest line := by
  refine ⟨exists_build_iff, fun r h => (build_eq_ok_iff_makes.mp h).2, fun e => build_eq_error_iff,
    fun e h => ?_, fun c => ?_⟩
  · obtain ⟨_, _, _, -, -, hfault⟩ := build_eq_error_iff.mp h
    exact hfault.isStartup_eq
  · obtain ⟨e, hread, hlines⟩ := c.exists_helpPattern
    exact ⟨e, hread, Pattern.read_of_read hread, hlines⟩

/-- A declaration with several faults, and a name that is that of another one when trimmed: which of
the two stands in front decides what is reported. -/
theorem build_all_or_nothing_several :
    let say : CommandDecl Nat := ⟨" say", "Says it", [⟨.written "say <text:s>", "aloud", some 1⟩]⟩
    let sing : CommandDecl Nat := ⟨"sing", "", [⟨.written "sing <note:i>", "", some 2⟩,
      ⟨.custom "(" "sing (", "", none⟩, ⟨.written "sing!", "", none⟩]⟩
    let again : CommandDecl Nat := ⟨"say\t", "", [⟨.written "say", "", none⟩]⟩
    (∃ r, build [say] = .ok r ∧ List.Forall₂ CommandDecl.Makes [say] r.commands) ∧
      build [say, sing, again] = .error (.customMatcher "sing (" "unclosed group") ∧
      build [say, again, sing] = .error (.duplicateCommand "say") ∧
      ¬ Sound [say, sing, again] := by
  intro say sing again
  have hsay : Sound [say] := by
    refine ⟨by simp, fun d hd sd hsd => ?_⟩
    rw [List.mem_singleton.mp hd] at hsd
    rw [List.mem_singleton.mp hsd]
    exact ⟨⟨_, rfl⟩, _, rfl⟩
  have htrimmed : Text.trim " say" = "say" ∧ Text.trim "say\t" = "say" ∧
      Text.trim "sing" = "sing" := by decide +kernel
  obtain ⟨hname, hname', hname''⟩ := htrimmed
  have hfirst : (⟨.written "sing <note:i>", "", some 2⟩ : SignatureDecl Nat).Sound :=
    ⟨⟨_, rfl⟩, _, rfl⟩
  have hread : Pattern.read ("^(?:" ++ "(" ++ ")$").toList = .error .unclosedGroup := by
    rw [show ("^(?:" ++ "(" ++ ")$").toList = ['^', '(', '?', ':', '(', ')', '$'] by decide +kernel]
    rfl
  have hfault : sing.Fault (.customMatcher "sing (" "unclosed group") :=
    ⟨[_], ⟨.custom "(" "sing (", "", none⟩, [_], rfl, List.forall_mem_singleton.mpr hfirst,
      .invalid (Grammar.compile_custom_eq_error_iff.mpr ⟨_, hread, rfl⟩)⟩
  obtain ⟨hbuilds, hmakes, -⟩ := build_all_or_nothing [say]
  obtain ⟨hsound, -, hfirstFault, -⟩ := build_all_or_nothing [say, sing, again]
  obtain ⟨-, -, hfirstFault', -⟩ := build_all_or_nothing [say, again, sing]
  have hother : Text.trim "sing" ∉ [Text.trim " say"] := by
    rw [hname, hname'']
    decide
  have hsing : build [say, sing, again] = .error (.customMatcher "sing (" "unclosed group") :=
    (hfirstFault _).mpr ⟨[say], sing, [again], rfl, hsay, .signature hother hfault⟩
  have hagain : build [say, again, sing] = .error (.duplicateCommand (Text.trim "say\t")) :=
    (hfirstFault' _).mpr ⟨[say], again, [sing], rfl, hsay,
      .duplicate (List.mem_singleton.mpr (hname'.trans hname.symm))⟩
  rw [hname'] at hagain
  obtain ⟨r, hr⟩ := hbuilds.mpr hsay
  refine ⟨⟨r, hr, hmakes r hr⟩, hsing, hagain, fun h => ?_⟩
  obtain ⟨r, hr⟩ := hsound.mpr h
  exact absurd (hr.symm.trans hsing) nofun

end Registry

end CommandConsole

import CommandConsole.Proofs.Atomicity
import CommandConsole.Proofs.Normal
import CommandConsole.Proofs.Resolving

/-!
# CommandConsole.Proofs.Defining — which alias a line defines

A line of `alias new` has a name and a text with the word `to` between them. Both can contain that
word themselves. The name is then as long as it can be: it goes on to the last `to` that has
something behind it. So a line that is meant to define a name of one word does so if and only if the
text has no such word in it; otherwise it defines a longer name, and the one that is meant keeps
what it stood for.

* `Parted`: a text in two parts; `exists_later`: how two ways to part a text differ.
* `Builtins.fills_defining_iff`, `Builtins.exists_captures`: the values in a line.
* `Console.IsBuiltin.alias_new`: which alias the line defines.
-/

namespace CommandConsole

/-! ### Two ways to part a text -/

/-- The text is a name and another text, with the word `to` between them and something behind it. -/
structure Parted (whole name text : String) : Prop where
  eq : whole = name ++ " to " ++ text
  nonblank : Text.trim text ≠ ""

theorem toList_to : " to ".toList = [' ', 't', 'o', ' '] := by decide

/-- Where the name is longer, the word between is found again behind the shorter name. -/
theorem exists_later {a t name text : String} (h : a ++ " to " ++ t = name ++ " to " ++ text)
    (hlt : a.length < name.length) :
    ∃ before, name = a ++ " to" ++ before ∧ " " ++ t = before ++ " to " ++ text := by
  rw [← String.length_toList, ← String.length_toList] at hlt
  have hchars := congrArg String.toList h
  rw [String.toList_append, String.toList_append, String.toList_append, String.toList_append,
    List.append_assoc, List.append_assoc, toList_to] at hchars
  obtain ⟨c, later, hname, hmore⟩ := exists_of_shorter hchars.symm hlt
  -- the two words can overlap in one space only
  match later with
  | [] => simp at hmore
  | [_] => simp at hmore
  | x :: y :: before =>
    simp only [List.cons_append, List.nil_append, List.cons.injEq] at hmore
    obtain ⟨rfl, rfl, rfl, hmore⟩ := hmore
    refine ⟨String.ofList before, String.toList_inj.mp ?_, String.toList_inj.mp ?_⟩
    · simp [hname]
    · simpa using hmore

theorem eq_of_length_eq {a t name text : String} (h : a ++ " to " ++ t = name ++ " to " ++ text)
    (hlen : a.length = name.length) : name = a ∧ text = t := by
  have hchars := congrArg String.toList h
  simp only [String.toList_append, List.append_assoc] at hchars
  rw [← String.length_toList, ← String.length_toList] at hlen
  obtain ⟨hname, hrest⟩ := List.append_inj hchars hlen
  exact ⟨String.toList_inj.mp hname.symm,
    String.toList_inj.mp (List.append_cancel_left hrest).symm⟩

/-- Blanks at the end of a text that is parted are the end of its second part. -/
theorem Parted.exists_end {whole blank name text : String} (h : Parted (whole ++ blank) name text)
    (hblank : ∀ c ∈ blank.toList, Text.isBlank c = true) :
    ∃ shorter, shorter ≠ "" ∧ whole = name ++ " to " ++ shorter := by
  have hsome : ¬ ∀ c ∈ text.toList, Text.isBlank c = true := fun hall =>
    h.nonblank (Text.trim_eq_empty_iff.mpr hall)
  have hchars := congrArg String.toList h.eq
  rw [String.toList_append, String.toList_append (s := name ++ " to ")] at hchars
  rcases List.append_eq_append_iff.mp hchars with ⟨as, -, hend⟩ | ⟨shorter, hwhole, htext⟩
  · exact absurd (fun c hc => hblank c (hend ▸ List.mem_append_right as hc)) hsome
  · refine ⟨String.ofList shorter, fun hnil => ?_, String.toList_inj.mp ?_⟩
    · rw [String.ofList_eq_empty_iff] at hnil
      rw [htext, hnil] at hsome
      exact hsome hblank
    · rw [hwhole, String.toList_append (s := name ++ " to "), String.toList_ofList]

/-- The text is parted at the last place: no other name is longer. -/
structure PartedLast (whole name text : String) : Prop extends Parted whole name text where
  longest : ∀ other more, Parted whole other more → other.length ≤ name.length

namespace PartedLast

variable {a t name text : String} (h : PartedLast (a ++ " to " ++ t) name text)

include h

/-- What is parted at the last place has the parts it is made of, or its name goes on behind the
first one. -/
theorem eq_or (ht : Text.trim t ≠ "") : (name = a ∧ text = t) ∨
    ∃ before, name = a ++ " to" ++ before ∧ Parted (" " ++ t) before text := by
  rcases Nat.lt_or_eq_of_le (h.longest a t ⟨rfl, ht⟩) with hlt | hlen
  · obtain ⟨before, hname, hmore⟩ := exists_later h.eq hlt
    exact Or.inr ⟨before, hname, hmore, h.nonblank⟩
  · exact Or.inl (eq_of_length_eq h.eq hlen)

/-- It has the parts it is made of if and only if the second one cannot be parted. -/
theorem eq_iff (ht : Text.trim t ≠ "") :
    name = a ∧ text = t ↔ ∀ before more, ¬ Parted (" " ++ t) before more := by
  constructor
  · rintro ⟨rfl, rfl⟩ before more hlater
    have hpart : name ++ " to " ++ text = name ++ " to" ++ before ++ " to " ++ more := by
      simpa [← String.toList_inj] using hlater.eq
    have hle := h.longest (name ++ " to" ++ before) more ⟨hpart, hlater.nonblank⟩
    have hword : " to".length = 3 := rfl
    rw [String.length_append, String.length_append] at hle
    omega
  · intro hnone
    refine (h.eq_or ht).resolve_right ?_
    rintro ⟨before, -, hlater⟩
    exact hnone before text hlater

end PartedLast

/-! ### The values in a line -/

namespace Builtins

/-- The signature that defines an alias. -/
def definingText : String := "alias new <alias:s> to <commands:s>"

/-- Its parts. -/
def defining : List SignatureToken :=
  [.word "alias", .word "new", .value ⟨"alias", .text⟩, .word "to", .value ⟨"commands", .text⟩]

theorem fills_defining_iff {values : List String} {line : String} :
    Fills defining values line ↔ ∃ name text, values = [name, text] ∧
      PlaceholderKind.Takes .text name.toList ∧ PlaceholderKind.Takes .text text.toList ∧
      line = "alias new " ++ (name ++ " to " ++ text) := by
  have hjoin (name text : String) : " ".intercalate ["alias", "new", name, "to", text] =
      "alias new " ++ (name ++ " to " ++ text) := by
    refine String.toList_inj.mp ?_
    simp
  simp only [Fills, defining, filling_word, filling_value, filling_nil]
  constructor
  · rintro ⟨_, ⟨_, rfl, _, rfl, name, _, _, rfl, rfl, hname, _, rfl, text, _, _, rfl, rfl, htext,
      rfl, rfl⟩, rfl⟩
    exact ⟨name, text, rfl, hname, htext, hjoin name text⟩
  · rintro ⟨name, text, rfl, hname, htext, rfl⟩
    exact ⟨_, ⟨_, rfl, _, rfl, name, _, _, rfl, rfl, hname, _, rfl, text, _, _, rfl, rfl, htext,
      rfl, rfl⟩, hjoin name text⟩

/-- A line that can be parted gives the longest name. -/
theorem exists_captures {whole first second : String}
    (h : whole = first ++ " to " ++ second) (hfirst : first ≠ "") (hsecond : second ≠ "")
    (hline : '\n' ∉ whole.toList) : ∃ name text,
      (Signature.ofTokens definingText defining).captures? ("alias new " ++ whole) =
        some [name, text] ∧
      name ≠ "" ∧ text ≠ "" ∧ whole = name ++ " to " ++ text ∧
      ∀ other more, more ≠ "" → whole = other ++ " to " ++ more → other.length ≤ name.length := by
  have hne : defining ≠ [] := List.cons_ne_nil _ _
  -- both parts of a text without line breaks are values
  have hfills (other more : String) (hother : other ≠ "") (hmore : more ≠ "")
      (hwhole : whole = other ++ " to " ++ more) :
      Fills defining [other, more] ("alias new " ++ whole) := by
    subst hwhole
    rw [String.toList_append, String.toList_append, List.mem_append, List.mem_append,
      not_or, not_or] at hline
    refine fills_defining_iff.mpr ⟨other, more, rfl, ⟨by simpa, ?_⟩, ⟨by simpa, ?_⟩, rfl⟩
    · rintro c hc rfl
      exact hline.1.1 hc
    · rintro c hc rfl
      exact hline.2 hc
  obtain ⟨values, hvalues⟩ := Option.isSome_iff_exists.mp
    (Signature.isSome_of_fills hne (hfills first second hfirst hsecond h))
  obtain ⟨hfill, hmax⟩ := Signature.fills_of_captures? hne hvalues
  obtain ⟨name, text, rfl, ⟨hname, -⟩, ⟨htext, -⟩, heq⟩ := fills_defining_iff.mp hfill
  refine ⟨name, text, hvalues, by simpa using hname, by simpa using htext, ?_, ?_⟩
  · simpa [← String.toList_inj] using heq
  · intro other more hmore hwhole
    by_cases hother : other = ""
    · rw [hother]
      exact Nat.zero_le _
    · rcases hmax _ (hfills other more hother hmore hwhole) with heq | hlt
      · obtain ⟨rfl, -⟩ := List.cons.inj heq
        exact Nat.le_refl _
      · rcases List.cons_lt_cons_iff.mp hlt with hlt | ⟨heq, -⟩
        · exact Nat.le_of_lt hlt
        · exact Nat.le_of_eq heq

theorem compile_defining :
    Signature.compile definingText = .ok (.ofTokens definingText defining) := by
  decide +kernel

/-- The commands in front of the one for aliases know no line that starts like its first
signature. -/
theorem refuses_before_aliases {τ : Type} :
    ∀ o ∈ [help, print, clear, showPanel, hidePanel].map (CommandDecl.outline (η := Handler τ)),
      o.refuses "alias new ".toList = true := by
  show ∀ o ∈ [⟨"help", [.written "help"]⟩, ⟨"print", [.written "print <text:s>"]⟩,
      ⟨"clear", [.written "clear"]⟩, ⟨"open", [.written "open"]⟩, ⟨"close", [.written "close"]⟩],
    Outline.refuses "alias new ".toList o = true
  refine List.all_eq_true.mp ?_
  decide +kernel

end Builtins

/-! ### Registering -/

namespace Session

variable {τ : Type} (s : Session τ) {name text other : String}

theorem registerAlias_congr (h : Text.trim text = Text.trim other) :
    s.registerAlias name text = s.registerAlias name other := by
  unfold registerAlias AliasTable.register
  rw [h]

/-- A name that can be an alias stands for the text then, and every other one for what it did. -/
theorem registerAlias_of_name (hall : Text.trim name ≠ reservedAlias) (hne : Text.trim name ≠ "")
    (text : String) : ∃ u, s.registerAlias name text = (.ok (), u) ∧ ∀ x, u.aliases.lookup x =
      if Text.trim x = Text.trim name then some (Text.trim text) else s.aliases.lookup x := by
  unfold registerAlias AliasTable.register
  dsimp only
  rw [if_neg hall, if_neg hne]
  refine ⟨_, rfl, fun x => ?_⟩
  have haliases (table : AliasTable) : ({ s with aliases := table }.persist).aliases = table :=
    congrArg Ledger.aliases (ledger_persist { s with aliases := table })
  show (persist _).aliases.lookup x = _
  rw [haliases]
  exact TextMap.find?_insert _ _ _ _

end Session

namespace Console

variable {τ : Type} [Seconds τ] {c : Console τ} {s : Session τ}

theorem request_doing {p : Primitive τ} {u : Session τ} (h : p.apply c.config s = (.ok (), u)) :
    (Action.doing p).request c s = (.ends (.ok ()), u) := by
  rw [(Action.direct_doing p).request_eq]
  unfold Action.doing Action.call Action.effect
  rw [h]
  rfl

/-- A line of which two parts can be made defines an alias. -/
theorem IsBuiltin.resolve_defining (hc : c.IsBuiltin) {whole first second : String}
    (h : whole = first ++ " to " ++ second) (hfirst : first ≠ "") (hsecond : second ≠ "")
    (hline : '\n' ∉ whole.toList) : ∃ command binding name text,
      c.registry.resolve ("alias new " ++ whole) = some (.invoke command binding [name, text]) ∧
      binding.handler [name, text] = Action.doing (.registerAlias name text) ∧
      name ≠ "" ∧ text ≠ "" ∧ whole = name ++ " to " ++ text ∧
      ∀ other more, more ≠ "" → whole = other ++ " to " ++ more → other.length ≤ name.length := by
  obtain ⟨name, text, hcaptures, hrest⟩ := Builtins.exists_captures h hfirst hsecond hline
  have hbuild : Registry.build ([Builtins.help, Builtins.print, Builtins.clear, Builtins.showPanel,
      Builtins.hidePanel] ++ Builtins.aliases :: [Builtins.events, Builtins.fontSize,
        Builtins.delay, Builtins.exec]) = .ok c.registry := hc
  have hhelp : Command.helpRefuses "alias new ".toList
      (Builtins.aliases : CommandDecl (Handler τ)).trimmedName = true := by
    show Command.helpRefuses "alias new ".toList (Text.trim "alias") = true
    decide +kernel
  have hsignatures :
      (Builtins.aliases : CommandDecl (Handler τ)).signatures = [] ++ _ :: _ := rfl
  obtain ⟨command, binding, hresolve, -, hhandler⟩ :=
    Registry.exists_resolve_of_declared hbuild Builtins.refuses_before_aliases hhelp hsignatures
      nofun Builtins.compile_defining String.toList_append hcaptures
  exact ⟨command, binding, name, text, hresolve, by rw [← Option.some.inj hhandler]; rfl, hrest⟩

/-- A name that is longer than a word goes on with `to` behind it, so it is another one. -/
theorem trim_ne_of_longer {a before : String} (ha : a ≠ "")
    (hword : ∀ ch ∈ a.toList, Text.isBlank ch = false) :
    Text.trim (a ++ " to" ++ before) ≠ a ∧ Text.trim (a ++ " to" ++ before) ≠ reservedAlias ∧
      Text.trim (a ++ " to" ++ before) ≠ "" := by
  obtain ⟨ch, cs, hch⟩ := List.exists_cons_of_ne_nil (mt String.toList_eq_nil_iff.mp ha)
  have hname : (a ++ " to" ++ before).toList = ch :: (cs ++ " to".toList ++ before.toList) := by
    rw [String.toList_append, String.toList_append, hch]
    rfl
  obtain ⟨blank, hblank, heq⟩ :=
    Text.exists_trim (hword ch (by simp [hch])) (cs ++ " to".toList ++ before.toList)
  rw [← hname, ← Text.toList_trim] at heq
  -- the letters of `to` are not blank, so they are not among what is trimmed
  have hletter : 't' ∉ blank := fun hmem => absurd (hblank 't' hmem) (by decide +kernel)
  have hmem : 't' ∈ (a ++ " to" ++ before).toList := by simp
  refine ⟨fun htrim => ?_, fun htrim => ?_, fun htrim => ?_⟩
  · rw [htrim, String.toList_append, String.toList_append, List.append_assoc] at heq
    have hrest := List.append_cancel_left heq
    exact hletter (hrest ▸ by simp)
  · rw [heq, htrim] at hmem
    exact (List.mem_append.mp hmem).elim (by decide) hletter
  · rw [heq, htrim] at hmem
    exact (List.mem_append.mp hmem).elim (by decide) hletter

/-- Trimming such a line leaves its text up to the last character that is not blank. -/
theorem trim_defining (front : String) {b blank : String} (hb : Text.EndsSolid b)
    (hblank : ∀ ch ∈ blank.toList, Text.isBlank ch = true) :
    Text.trim ("alias new " ++ (front ++ b ++ blank)) = "alias new " ++ (front ++ b) := by
  rw [← String.append_assoc, Text.trim_append hblank]
  exact Text.trim_eq_self (c := 'a') (by rw [String.toList_append]; rfl) (by decide +kernel)
    ((hb.behind front).behind "alias new ")

/-- A line that is meant to define a name of one word asks to register the name up to the last
`to`. -/
theorem IsBuiltin.request_defining (hc : c.IsBuiltin) {a t : String} (ha : a ≠ "")
    (hword : ∀ ch ∈ a.toList, Text.isBlank ch = false) (ht : Text.trim t ≠ "")
    (hline : '\n' ∉ t.toList)
    (hkey : s.aliases.lookup ("alias new " ++ (a ++ " to " ++ t)) = none) : ∃ name text note,
      PartedLast (a ++ " to " ++ t) name text ∧
      ∀ u, (s.record note).registerAlias name text = (.ok (), u) →
        c.request ("alias new " ++ (a ++ " to " ++ t)) s = (.ends (.ok ()), u) := by
  obtain ⟨b, blank, rfl, hb, hblank⟩ := Text.exists_endsSolid ht
  have hwhole : a ++ " to " ++ (b ++ blank) = a ++ " to " ++ b ++ blank := String.append_assoc.symm
  rw [hwhole] at hkey ⊢
  have hbne : b ≠ "" := by
    rintro rfl
    exact hb.trim_ne rfl
  have hbreak : '\n' ∉ (a ++ " to " ++ b).toList := by
    intro hmem
    rw [String.toList_append, String.toList_append] at hmem
    rcases List.mem_append.mp hmem with hmem | hmem
    · rcases List.mem_append.mp hmem with hmem | hmem
      · exact absurd (hword _ hmem) (by decide +kernel)
      · exact absurd hmem (by decide)
    · exact hline (by rw [String.toList_append]; exact List.mem_append_left _ hmem)
  obtain ⟨command, binding, name, short, hresolve, hhandler, -, hshort, hparts, hmax⟩ :=
    hc.resolve_defining rfl ha hbne hbreak
  have htrim := trim_defining (a ++ " to ") hb hblank
  obtain ⟨note, hnote⟩ := exists_note_of_resolve (by simp [htrim]) (htrim ▸ hresolve)
  refine ⟨name, short ++ blank, note, ⟨⟨by rw [hparts, String.append_assoc], ?_⟩,
    fun other more h => ?_⟩, fun u hu => ?_⟩
  · rw [Text.trim_append hblank]
    have hends : Text.EndsSolid (name ++ " to " ++ short) := hparts ▸ hb.behind (a ++ " to ")
    exact (Text.EndsSolid.of_behind hends hshort).trim_ne
  · obtain ⟨shorter, hne, heq⟩ := h.exists_end hblank
    exact hmax other shorter hne heq
  · rw [← Session.registerAlias_congr _ (Text.trim_append hblank).symm] at hu
    rw [hnote s hkey, hhandler]
    exact request_doing hu

/-- **Defining an alias.** A line that is meant to define a name of one word succeeds and defines
one alias, and changes no other one. Its name is the longest one behind which there is a `to` and
something after it. It is the name that is meant, with the text that is meant, if and only if the
text has no such `to` in it; otherwise it is another name. -/
theorem IsBuiltin.alias_new (hc : c.IsBuiltin) {a t : String} (ha : a ≠ "")
    (hword : ∀ ch ∈ a.toList, Text.isBlank ch = false) (hall : a ≠ reservedAlias)
    (ht : Text.trim t ≠ "") (hline : '\n' ∉ t.toList)
    (hkey : s.aliases.lookup ("alias new " ++ (a ++ " to " ++ t)) = none) : ∃ name text u,
      PartedLast (a ++ " to " ++ t) name text ∧
      (∀ op ∈ [Op.dispatch ("alias new " ++ (a ++ " to " ++ t)),
        .execute ("alias new " ++ (a ++ " to " ++ t))], ∀ outcome v,
          c.Returns op s outcome v ↔ outcome = .ok () ∧ v = u) ∧
      (∃ note, (s.record note).registerAlias name text = (.ok (), u)) ∧
      (∀ x, u.aliases.lookup x =
        if Text.trim x = Text.trim name then some (Text.trim text) else s.aliases.lookup x) ∧
      (name = a ∧ text = t ↔ ∀ before more, ¬ Parted (" " ++ t) before more) ∧
      (name ≠ a → Text.trim name ≠ a) := by
  obtain ⟨name, text, note, hlast, hrequest⟩ := hc.request_defining ha hword ht hline hkey
  have hname : Text.trim name ≠ reservedAlias ∧ Text.trim name ≠ "" := by
    rcases hlast.eq_or ht with ⟨rfl, -⟩ | ⟨before, rfl, -⟩
    · rw [Text.trim_word ha hword]
      exact ⟨hall, ha⟩
    · exact (trim_ne_of_longer ha hword).2
  obtain ⟨u, hu, hlookup⟩ := (s.record note).registerAlias_of_name hname.1 hname.2 text
  refine ⟨name, text, u, hlast, (Returns.of_ends hc (hrequest u hu)).entered_iff, ⟨note, hu⟩,
    hlookup, hlast.eq_iff ht, fun hother => ?_⟩
  obtain ⟨before, rfl, -⟩ := (hlast.eq_or ht).resolve_left fun h => hother h.1
  exact (trim_ne_of_longer ha hword).1

/-- A text with `to` in it: the name that is meant stands for what it did, and a longer one is
defined. -/
theorem IsBuiltin.alias_new_longer :
    let c := exact .standard
    let s := Session.remembering c.config (TextMap.empty.insert "x" "print hi")
    ∃ u, c.Returns (.execute "alias new x to print go to market") s (.ok ()) u ∧
      u.aliases.lookup "x" = some "print hi" ∧
      u.aliases.lookup "x to print go" = some "market" := by
  intro c s
  have hword : ∀ ch ∈ "x".toList, Text.isBlank ch = false := by
    intro ch hch
    obtain rfl : ch = 'x' := by simpa using hch
    decide +kernel
  obtain ⟨name, text, u, hlast, hreturns, -, hlookup, -, -⟩ :=
    (isBuiltin_exact .standard).alias_new (s := s) (a := "x") (t := "print go to market")
      (by decide) hword (by decide) (by decide +kernel) (by decide) (by decide +kernel)
  have hnone (before more : String) : ¬ Parted (" " ++ "market") before more := by
    intro h
    have hmem : 'o' ∈ (" " ++ "market").toList := by
      rw [h.eq]
      simp
    exact absurd hmem (by decide)
  have hsame : "x" ++ " to " ++ "print go to market" = "x to print go" ++ " to " ++ "market" := by
    decide
  rw [hsame] at hlast
  obtain ⟨rfl, rfl⟩ := (hlast.eq_iff (by decide +kernel)).mpr hnone
  refine ⟨u, (hreturns _ (List.mem_cons_of_mem _ List.mem_cons_self) _ _).mpr ⟨rfl, rfl⟩, ?_, ?_⟩
  · rw [hlookup, if_neg (by decide +kernel)]
    decide +kernel
  · rw [hlookup, if_pos rfl]
    decide +kernel

end Console

end CommandConsole

import CommandConsole.Proofs.Addressing
import CommandConsole.Proofs.Splitting

/-!
# CommandConsole.Proofs.Naming — what a name stands for after changes in turn

A name stands for the text that it was last registered with, unless it has been removed since, alone
or together with every alias. Names count as they are when they are trimmed, in all changes.

* `AliasTable.Change`, `AliasTable.run`: what can be done to a table.
* `AliasTable.LastRegistered`: the text of a name, read off the changes alone.
* `AliasTable.find?_run_iff`: a table has the texts that names were last registered with.
* `AliasTable.last_registered_counts`: what every operation gives after changes in turn.
-/

namespace CommandConsole.AliasTable

/-! ### Changes -/

/-- What can be done to a table. -/
inductive Change where
  | register (name text : String)
  | deregister (name : String)
deriving DecidableEq, Repr

/-- The table after a change; a registration that fails changes nothing. -/
def apply (table : AliasTable) : Change → AliasTable
  | .register name text =>
    match table.register name text with
    | .ok table' => table'
    | .error _ => table
  | .deregister name => (table.deregister name).2

/-- The table after changes in turn. -/
def run (table : AliasTable) (changes : List Change) : AliasTable := changes.foldl apply table

theorem run_concat (table : AliasTable) (changes : List Change) (change : Change) :
    table.run (changes ++ [change]) = (table.run changes).apply change := by
  simp [run, List.foldl_append]

/-- The trimmed name can be given to an alias. -/
def Free (key : String) : Prop := key ≠ reservedAlias ∧ key ≠ ""

instance (key : String) : Decidable (Free key) := inferInstanceAs (Decidable (_ ∧ _))

/-- The change is about the trimmed name: it registers or removes it, or removes every alias. -/
def Change.Touches (key : String) : Change → Prop
  | .register name _ => Text.trim name = key
  | .deregister name => Text.trim name = key ∨ Text.trim name = reservedAlias

instance (key : String) : DecidablePred (Change.Touches key)
  | .register _ _ => inferInstanceAs (Decidable (_ = _))
  | .deregister _ => inferInstanceAs (Decidable (_ ∨ _))

/-- The trimmed name was last registered with this text, as it was given, and has not been removed
since. -/
def LastRegistered (changes : List Change) (key written : String) : Prop :=
  Free key ∧ ∃ before name after, changes = before ++ .register name written :: after ∧
    Text.trim name = key ∧ ∀ change ∈ after, ¬ change.Touches key

variable {table : AliasTable} {changes : List Change} {name text key written line : String}

/-! ### One change -/

theorem apply_deregister (table : AliasTable) (name : String) :
    table.apply (.deregister name) = (table.deregister name).2 := rfl

/-- Names that are reserved or empty are refused. -/
theorem register_eq_error_iff {e : ConsoleError} : table.register name text = .error e ↔
    (Text.trim name = reservedAlias ∧ e = .reservedName reservedAlias) ∨
      (Text.trim name = "" ∧ e = .invalidArgument "alias name is empty") := by
  have hne : reservedAlias ≠ "" := by decide
  unfold register
  dsimp only
  split
  · next hall => simp [hall, hne, eq_comm]
  · next hall =>
    split
    · next hempty => simp [hempty, hne.symm, eq_comm]
    · next hempty => simp [hall, hempty]

theorem apply_register_of_free (table : AliasTable) (h : Free (Text.trim name)) (text : String) :
    table.apply (.register name text) =
      ⟨table.entries.insert (Text.trim name) (Text.trim text)⟩ := by
  have hok : table.register name text =
      .ok ⟨table.entries.insert (Text.trim name) (Text.trim text)⟩ := by
    unfold register
    dsimp only
    rw [if_neg h.1, if_neg h.2]
  simp only [apply, hok]

theorem apply_register_of_not_free (table : AliasTable) (h : ¬ Free (Text.trim name))
    (text : String) : table.apply (.register name text) = table := by
  have hname : Text.trim name = reservedAlias ∨ Text.trim name = "" := by
    rw [Free, not_and_or, not_not, not_not] at h
    exact h
  obtain ⟨e, he⟩ : ∃ e, table.register name text = .error e := by
    rcases hname with hall | hempty
    · exact ⟨_, register_eq_error_iff.mpr (.inl ⟨hall, rfl⟩)⟩
    · exact ⟨_, register_eq_error_iff.mpr (.inr ⟨hempty, rfl⟩)⟩
  simp only [apply, he]

theorem deregister_reserved (table : AliasTable) (hname : Text.trim name = reservedAlias) :
    table.deregister name = (.all table.entries.size, empty) :=
  if_pos hname

theorem deregister_fst (table : AliasTable) (hname : Text.trim name ≠ reservedAlias) :
    (table.deregister name).1 =
      if table.entries.contains (Text.trim name) then .one else .missing := by
  unfold deregister
  dsimp only
  rw [if_neg hname]
  split <;> rfl

/-- A change that is not about a name leaves it what it stands for. -/
theorem find?_apply_of_not_touches (table : AliasTable) {change : Change}
    (h : ¬ change.Touches key) : (table.apply change).entries.find? key = table.entries.find? key := by
  cases change with
  | register name text =>
    by_cases hfree : Free (Text.trim name)
    · rw [apply_register_of_free table hfree]
      exact (TextMap.find?_insert _ _ _ _).trans (if_neg (Ne.symm h))
    · rw [apply_register_of_not_free table hfree]
  | deregister name =>
    obtain ⟨hkey, hall⟩ := not_or.mp h
    rw [apply_deregister]
    unfold deregister
    dsimp only
    rw [if_neg hall]
    split
    · exact (TextMap.find?_erase _ _ _).trans (if_neg (Ne.symm hkey))
    · rfl

/-- A name that is removed, or all names, stand for nothing. -/
theorem find?_apply_deregister (table : AliasTable)
    (h : Text.trim name = key ∨ Text.trim name = reservedAlias) :
    (table.apply (.deregister name)).entries.find? key = none := by
  rw [apply_deregister]
  by_cases hall : Text.trim name = reservedAlias
  · rw [deregister_reserved table hall]
    rfl
  · have hkey : Text.trim name = key := h.resolve_right hall
    unfold deregister
    dsimp only
    rw [if_neg hall, hkey]
    split
    · exact (TextMap.find?_erase _ _ _).trans (if_pos rfl)
    · next hlive => exact Option.not_isSome_iff_eq_none.mp hlive

/-! ### Changes in turn -/

/-- What a name was last registered with, seen from the last change. -/
theorem lastRegistered_concat {change : Change} :
    LastRegistered (changes ++ [change]) key written ↔
      (Free key ∧ ∃ name, change = .register name written ∧ Text.trim name = key) ∨
        (¬ change.Touches key ∧ LastRegistered changes key written) := by
  constructor
  · rintro ⟨hfree, before, name, after, hchanges, hname, hafter⟩
    induction after using List.reverseRecOn with
    | nil =>
      obtain ⟨-, hlast⟩ := List.append_inj' hchanges rfl
      exact .inl ⟨hfree, name, List.singleton_inj.mp hlast, hname⟩
    | append_singleton after last _ =>
      rw [← List.cons_append, ← List.append_assoc] at hchanges
      obtain ⟨hearlier, hlast⟩ := List.append_inj' hchanges rfl
      obtain ⟨hafter, hnot⟩ := List.forall_mem_append.mp hafter
      refine .inr ⟨?_, hfree, before, name, after, hearlier, hname, hafter⟩
      exact hnot _ (List.mem_singleton.mpr (List.singleton_inj.mp hlast))
  · rintro (⟨hfree, name, rfl, hname⟩ | ⟨hlast, hfree, before, name, after, rfl, hname, hafter⟩)
    · exact ⟨hfree, changes, name, [], rfl, hname, List.forall_mem_nil _⟩
    · refine ⟨hfree, before, name, after ++ [change], ?_, hname, ?_⟩
      · rw [List.append_assoc, List.cons_append]
      · exact List.forall_mem_append.mpr ⟨hafter, List.forall_mem_singleton.mpr hlast⟩

theorem lastRegistered_register (hfree : Free (Text.trim name)) :
    LastRegistered (changes ++ [.register name text]) (Text.trim name) written ↔
      written = text := by
  rw [lastRegistered_concat]
  constructor
  · rintro (⟨-, other, hregister, -⟩ | ⟨hnot, -⟩)
    · exact (Change.register.inj hregister).2.symm
    · exact absurd rfl hnot
  · rintro rfl
    exact .inl ⟨hfree, name, rfl, rfl⟩

theorem not_lastRegistered_deregister
    (h : Text.trim name = key ∨ Text.trim name = reservedAlias) :
    ¬ LastRegistered (changes ++ [.deregister name]) key written := by
  rw [lastRegistered_concat]
  rintro (⟨-, other, hregister, -⟩ | ⟨hnot, -⟩)
  · cases hregister
  · exact hnot h

theorem lastRegistered_of_not_touches {change : Change} (h : ¬ change.Touches key) :
    LastRegistered (changes ++ [change]) key written ↔ LastRegistered changes key written := by
  rw [lastRegistered_concat]
  constructor
  · rintro (⟨-, name, rfl, hname⟩ | ⟨-, hlast⟩)
    · exact absurd hname h
    · exact hlast
  · exact fun hlast => .inr ⟨h, hlast⟩

/-- **Runs**: a table has the texts that names were last registered with, trimmed. -/
theorem find?_run_iff : (empty.run changes).entries.find? key = some text ↔
    ∃ written, LastRegistered changes key written ∧ text = Text.trim written := by
  induction changes using List.reverseRecOn with
  | nil =>
    refine ⟨nofun, ?_⟩
    rintro ⟨written, ⟨-, before, name, after, hchanges, -⟩, -⟩
    simp at hchanges
  | append_singleton changes change ih =>
    rw [run_concat]
    by_cases htouches : change.Touches key
    · cases change with
      | register name given =>
        obtain rfl : Text.trim name = key := htouches
        by_cases hfree : Free (Text.trim name)
        · have hfound : ((empty.run changes).apply (.register name given)).entries.find?
              (Text.trim name) = some (Text.trim given) := by
            rw [apply_register_of_free _ hfree]
            exact (TextMap.find?_insert _ _ _ _).trans (if_pos rfl)
          simp [hfound, lastRegistered_register hfree, eq_comm]
        · rw [apply_register_of_not_free _ hfree, ih]
          simp [LastRegistered, hfree]
      | deregister name =>
        rw [find?_apply_deregister _ htouches]
        simp [not_lastRegistered_deregister htouches]
    · rw [find?_apply_of_not_touches _ htouches, ih]
      simp only [lastRegistered_of_not_touches htouches]

theorem contains_run_iff : (empty.run changes).entries.contains key = true ↔
    ∃ written, LastRegistered changes key written := by
  rw [TextMap.contains, Option.isSome_iff_exists]
  simp only [find?_run_iff]
  constructor
  · rintro ⟨_, written, h, -⟩
    exact ⟨written, h⟩
  · rintro ⟨written, h⟩
    exact ⟨_, written, h, rfl⟩

theorem Unreserved.apply (h : table.Unreserved) (change : Change) :
    (table.apply change).Unreserved := by
  cases change with
  | register name text =>
    unfold AliasTable.apply
    dsimp only
    split
    · next hr => exact h.register hr
    · exact h
  | deregister name =>
    rw [apply_deregister]
    exact h.deregister Prod.mk.eta.symm

/-- The reserved word never stands for anything, whatever map a table was made from. -/
theorem Unreserved.run (h : table.Unreserved) (changes : List Change) :
    (table.run changes).Unreserved := by
  induction changes generalizing table with
  | nil => exact h
  | cons change changes ih => exact ih (h.apply change)

theorem Unreserved.lookup_eq_none (h : table.Unreserved) (hline : Text.trim line = reservedAlias) :
    table.lookup line = none := by
  rw [lookup, hline]
  exact h

theorem list_of_trim (table : AliasTable) (hname : Text.trim name = reservedAlias) :
    table.list name = .ok table.entries.entries :=
  if_pos hname

/-! ### The main statement -/

/-- **Aliases.** Whatever has been registered and removed in an empty table, a line stands for the
text that its trimmed name was last registered with and not removed since, trimmed; the statements
are those of the text as it was given. Registering fails for the reserved word and for an empty name
only, and then changes nothing. The reserved word lists every name with its text once, in increasing
order of the names, and removing it gives their number; removing another name says whether it stood
for a text. The reserved word itself never stands for one, also in a table made from any map. -/
theorem last_registered_counts (changes : List Change) :
    let table := empty.run changes
    (∀ line text, table.lookup line = some text ↔
        ∃ written, LastRegistered changes (Text.trim line) written ∧ text = Text.trim written) ∧
      (∀ line written, LastRegistered changes (Text.trim line) written →
        table.expand line = some (Text.statements written)) ∧
      (∀ name text e, table.register name text = .error e ↔
        (Text.trim name = reservedAlias ∧ e = .reservedName reservedAlias) ∨
          (Text.trim name = "" ∧ e = .invalidArgument "alias name is empty")) ∧
      (∀ name text, Text.trim name = reservedAlias ∨ Text.trim name = "" →
        table.apply (.register name text) = table) ∧
      (∃ live, Sorted live ∧
        (∀ key text, (key, text) ∈ live ↔
          ∃ written, LastRegistered changes key written ∧ text = Text.trim written) ∧
        ∀ name, Text.trim name = reservedAlias → table.list name = .ok live ∧
          table.deregister name = (.all live.length, empty)) ∧
      (∀ name, Text.trim name ≠ reservedAlias →
        ((table.deregister name).1 = .one ↔
          ∃ written, LastRegistered changes (Text.trim name) written) ∧
        ((table.deregister name).1 = .missing ↔
          ¬ ∃ written, LastRegistered changes (Text.trim name) written)) ∧
      ∀ saved line, Text.trim line = reservedAlias →
        table.lookup line = none ∧ ((ofMap saved).1.run changes).lookup line = none := by
  intro table
  have hempty : (empty : AliasTable).Unreserved := rfl
  refine ⟨fun line text => find?_run_iff, fun line written h => ?_,
    fun name text e => register_eq_error_iff, fun name text h => ?_,
    ⟨table.entries.entries, table.entries.sorted, fun key text => ?_, fun name hname =>
      ⟨list_of_trim table hname, deregister_reserved table hname⟩⟩,
    fun name hname => ?_, fun saved line hline => ⟨(hempty.run changes).lookup_eq_none hline,
      ((unreserved_ofMap saved).run changes).lookup_eq_none hline⟩⟩
  · have hfound : table.lookup line = some (Text.trim written) :=
      find?_run_iff.mpr ⟨written, h, rfl⟩
    rw [expand, hfound, Option.map_some, Text.statements_trim]
  · refine apply_register_of_not_free table (fun hfree => ?_) text
    exact h.elim hfree.1 hfree.2
  · rw [TextMap.mem_entries_iff]
    exact find?_run_iff
  · have hlive : table.entries.contains (Text.trim name) = true ↔ _ := contains_run_iff
    rw [deregister_fst table hname, ← hlive]
    split <;> simp [*]

/-- One name in three spellings, registered twice; another one removed, and the reserved word
refused. -/
theorem last_registered_counts_spellings :
    let changes : List Change := [.register "g" "print a", .register "h" "print h",
      .register " g\t" " print b;; print c ", .register " all " "print x", .deregister " h"]
    let table := empty.run changes
    LastRegistered changes "g" " print b;; print c " ∧ Text.trim "\ng " = "g" ∧
      table.lookup "\ng " = some "print b;; print c" ∧
      table.expand "\ng " = some ["print b", "print c"] ∧
      Text.trim "all\n" = reservedAlias ∧ table.lookup "all\n" = none ∧
      table.apply (.register "all\n" "print y") = table ∧
      table.deregister "all\n" = (.all 1, empty) ∧
      Text.trim "\ng " ≠ reservedAlias ∧ (table.deregister "\ng ").1 = .one := by
  intro changes table
  obtain ⟨hlookup, hexpand, -, hregister, ⟨live, -, -, hall⟩, hremoves, hreserved⟩ :=
    last_registered_counts changes
  have hg : LastRegistered changes "g" " print b;; print c " :=
    ⟨by decide, [.register "g" "print a", .register "h" "print h"], " g\t",
      [.register " all " "print x", .deregister " h"], rfl, by decide +kernel, by decide +kernel⟩
  have hname : Text.trim "\ng " = "g" := by decide +kernel
  have hword : Text.trim "all\n" = reservedAlias := by decide +kernel
  have hother : Text.trim "\ng " ≠ reservedAlias := by decide +kernel
  have htrim : Text.trim " print b;; print c " = "print b;; print c" := by decide +kernel
  have hstatements : Text.statements " print b;; print c " = ["print b", "print c"] := by
    decide +kernel
  have hlisted : table.list "all\n" = .ok [("g", "print b;; print c")] := by decide +kernel
  rw [← hname] at hg
  obtain ⟨hlive, hcleared⟩ := hall "all\n" hword
  obtain rfl := Except.ok.inj (hlisted.symm.trans hlive)
  exact ⟨hname ▸ hg, hname, (hlookup _ _).mpr ⟨_, hg, htrim.symm⟩,
    (hexpand _ _ hg).trans (congrArg some hstatements), hword, (hreserved ∅ _ hword).1,
    hregister _ _ (.inl hword), hcleared, hother, (hremoves _ hother).1.mpr ⟨_, hg⟩⟩

end CommandConsole.AliasTable

import CommandConsole.Proofs.Throughout

/-!
# CommandConsole.Proofs.Addressing — which aliases can be reached by their names

Every operation on aliases trims the name that it is given, and so does registering one. A saved
record is taken over as it is, whatever its names are: an alias whose name has blanks around it is
listed under that name, and no operation that is given the name finds it.

* `AliasTable.Addressable`: an alias can be looked up, shown and removed by its name.
* `AliasTable.addressable_iff`: it can, exactly if its name is trimmed.
* `Console.listed_addressable_iff`: where the listed aliases that cannot be reached come from.
-/

namespace CommandConsole

namespace TextMap

theorem mem_entries_iff (m : TextMap) {key value : String} :
    (key, value) ∈ m.entries ↔ m.find? key = some value := by
  obtain ⟨entries, hsorted⟩ := m
  simp only [find?, Option.map_eq_some_iff]
  constructor
  · intro hmem
    induction entries with
    | nil => cases hmem
    | cons e entries ih =>
      obtain ⟨hfirst, hsorted⟩ := List.pairwise_cons.mp hsorted
      obtain rfl | hmem := List.mem_cons.mp hmem
      · exact ⟨(key, value), List.find?_cons_of_pos (beq_self_eq_true key), rfl⟩
      · have hne : ¬ (e.1 == key) = true := by
          simpa using String.ne_of_lt (hfirst _ hmem)
        obtain ⟨found, hfound, rfl⟩ := ih hsorted hmem
        refine ⟨found, ?_, rfl⟩
        simp only [List.find?_cons, hne]
        exact hfound
  · rintro ⟨⟨key', value'⟩, hfound, rfl⟩
    have hkey : key' = key := by simpa using List.find?_some hfound
    exact hkey ▸ List.mem_of_find?_eq_some hfound

theorem mem_entries_erase {m : TextMap} {key : String} {e : String × String} :
    e ∈ (m.erase key).entries ↔ e ∈ m.entries ∧ e.1 ≠ key := by
  simp [erase, List.mem_filter]

end TextMap

/-! ### One table -/

namespace AliasTable

/-- The listed alias can be looked up, shown and removed by its name; removing it removes nothing
else. -/
structure Addressable (table : AliasTable) (name text : String) : Prop where
  lookup_eq : table.lookup name = some text
  list_eq : table.list name = .ok [(name, text)]
  removes : ∃ rest, table.deregister name = (.one, rest) ∧
    ∀ e, e ∈ rest.entries.entries ↔ e ∈ table.entries.entries ∧ e ≠ (name, text)

variable {table : AliasTable} {name text : String}

theorem list_reservedAlias (table : AliasTable) :
    table.list reservedAlias = .ok table.entries.entries := by
  have htrim : Text.trim reservedAlias = reservedAlias := by decide +kernel
  unfold list
  dsimp only
  rw [htrim, if_pos rfl]

theorem Unreserved.ne_reservedAlias (h : table.Unreserved)
    (hname : table.entries.find? name = some text) : name ≠ reservedAlias := by
  rintro rfl
  cases h.symm.trans hname

theorem addressable_of_trim (h : table.Unreserved) (hname : table.entries.find? name = some text)
    (htrim : Text.trim name = name) : table.Addressable name text := by
  have hne := h.ne_reservedAlias hname
  have hcontains : table.entries.contains name = true := by rw [TextMap.contains, hname]; rfl
  refine ⟨?_, ?_, ⟨table.entries.erase name⟩, ?_, ?_⟩
  · rw [lookup, htrim, hname]
  · unfold list
    dsimp only
    rw [htrim, if_neg hne, hname]
  · unfold deregister
    dsimp only
    rw [htrim, if_neg hne, if_pos hcontains]
  · intro e
    rw [TextMap.mem_entries_erase]
    refine and_congr_right fun he => not_congr ⟨?_, fun heq => congrArg Prod.fst heq⟩
    -- a name has one entry only
    rintro rfl
    have hfound := table.entries.mem_entries_iff.mp he
    rw [hname] at hfound
    exact Prod.ext rfl (Option.some.inj hfound).symm

/-- Removing, other than every alias, leaves each alias whose name is not trimmed. -/
theorem mem_deregister (hmem : (name, text) ∈ table.entries.entries)
    (htrim : Text.trim name ≠ name) {given : String} (hgiven : Text.trim given ≠ reservedAlias) :
    (name, text) ∈ (table.deregister given).2.entries.entries := by
  unfold deregister
  dsimp only
  rw [if_neg hgiven]
  split
  · refine TextMap.mem_entries_erase.mpr ⟨hmem, fun heq => htrim ?_⟩
    rw [show name = Text.trim given from heq, Text.trim_trim]
  · exact hmem

/-- A listed alias can be reached by its name exactly if the name is trimmed. -/
theorem addressable_iff (h : table.Unreserved) (hname : table.entries.find? name = some text) :
    table.Addressable name text ↔ Text.trim name = name := by
  refine ⟨fun ⟨_, _, rest, hrest, hmem⟩ => ?_, addressable_of_trim h hname⟩
  by_contra htrim
  have hgiven : Text.trim name ≠ reservedAlias := by
    intro hall
    unfold deregister at hrest
    dsimp only at hrest
    rw [if_pos hall] at hrest
    cases hrest
  have hlisted := table.entries.mem_entries_iff.mpr hname
  have hkept := mem_deregister hlisted htrim hgiven
  rw [hrest] at hkept
  exact ((hmem _).mp hkept).2 rfl

end AliasTable

/-! ### Names with blanks around them -/

/-- Every alias whose name has blanks around it has been there before, with the same text. -/
def Ledger.NoNewPadded (x y : Ledger) : Prop :=
  ∀ name text, Text.trim name ≠ name → y.aliases.entries.find? name = some text →
    x.aliases.entries.find? name = some text

theorem Revises.noNewPadded {τ : Type} {c : Config τ} {s u : Session τ} (h : Revises c s u) :
    s.ledger.NoNewPadded u.ledger := by
  intro name text htrim hname
  cases h with
  | @registered given written aliases hr =>
    unfold AliasTable.register at hr
    dsimp only at hr
    split at hr
    · cases hr
    · split at hr
      · cases hr
      · cases hr
        have hname : (s.aliases.entries.insert (Text.trim given) (Text.trim written)).find? name =
            some text := hname
        rwa [TextMap.find?_insert, if_neg ?_] at hname
        rintro rfl
        exact htrim (Text.trim_trim given)
  | @deregistered given _ aliases hr =>
    unfold AliasTable.deregister at hr
    dsimp only at hr
    split at hr
    · cases hr
      cases hname
    · split at hr
      · cases hr
        have hname : (s.aliases.entries.erase (Text.trim given)).find? name = some text := hname
        rw [TextMap.find?_erase] at hname
        split at hname
        · cases hname
        · exact hname
      · cases hr
        exact hname
  | bound | unbound | sized => exact hname

namespace Console

variable {τ : Type} [Seconds τ] {c : Console τ} {s₀ s : Session τ}

theorem tallies_noNewPadded : c.Tallies fun _ => Ledger.NoNewPadded where
  nil _ _ _ _ hname := hname
  silent _ _ _ _ _ _ hname := hname
  primitive p path s name text htrim hname := by
    rcases p.ledger_apply c.config s with h | ⟨u, hu, h⟩
    · rwa [h] at hname
    · rw [h] at hname
      exact hu.noNewPadded name text htrim hname
  append h h' name text htrim hname := h name text htrim (h' name text htrim hname)

/-- A session starts with the aliases of the record, without the reserved word. -/
theorem listed_start_iff {store : Store} {loaded : SavedState}
    (hload : store.load.1 = .ok loaded) (hstart : Session.start c.config store = .ok s₀)
    {name text : String} : s₀.aliases.entries.find? name = some text ↔
      name ≠ reservedAlias ∧ loaded.aliases.find? name = some text := by
  obtain ⟨-, state, hstate, rfl⟩ := Session.start_eq_ok_iff.mp hstart
  obtain rfl : loaded = state := Except.ok.inj (hload.symm.trans hstate)
  have haliases : (Session.ofSaved c.config store loaded).aliases = _ :=
    congrArg Ledger.aliases (Session.ledger_ofSaved c.config store loaded)
  show (Session.ofSaved c.config store loaded).aliases.entries.find? name = _ ↔ _
  rw [haliases]
  show (loaded.aliases.erase reservedAlias).find? name = _ ↔ _
  rw [TextMap.find?_erase]
  split
  · next heq => simp [heq]
  · next hne => simp [hne]

/-- **Listed aliases.** A console has started from any record, and any operations have followed,
whatever handlers do in them. In every session that is seen then, an alias that is listed can be
looked up, shown and removed by its name exactly if the name is trimmed. If it is not, then the
record has this alias under this name; looking up the name finds what the trimmed name stands for,
and only removing every alias removes it. All such aliases of the record are listed at the start. -/
theorem listed_addressable_iff {store : Store} {loaded : SavedState}
    (hload : store.load.1 = .ok loaded) (hstart : Session.start c.config store = .ok s₀)
    (h : c.Seen s₀ s) :
    (∃ listed, s.aliases.list reservedAlias = .ok listed ∧ ∀ name text, (name, text) ∈ listed →
      (s.aliases.Addressable name text ↔ Text.trim name = name) ∧
        (Text.trim name ≠ name → loaded.aliases.find? name = some text ∧
          s.aliases.lookup name = s.aliases.entries.find? (Text.trim name) ∧
          ∀ given, Text.trim given ≠ reservedAlias →
            (name, text) ∈ (s.aliases.deregister given).2.entries.entries)) ∧
      ∃ listed, s₀.aliases.list reservedAlias = .ok listed ∧ ∀ name text,
        loaded.aliases.find? name = some text → Text.trim name ≠ name → (name, text) ∈ listed := by
  refine ⟨⟨_, AliasTable.list_reservedAlias _, fun name text hmem => ?_⟩,
    _, AliasTable.list_reservedAlias _, fun name text hname htrim => ?_⟩
  · have hname := s.aliases.entries.mem_entries_iff.mp hmem
    refine ⟨AliasTable.addressable_iff (h.normal hstart).aliases hname, fun htrim => ?_⟩
    obtain ⟨moments, htallied⟩ := h.tallied
    have hfirst := htallied tallies_noNewPadded name text htrim hname
    exact ⟨((listed_start_iff hload hstart).mp hfirst).2, rfl,
      fun given => AliasTable.mem_deregister hmem htrim⟩
  · refine s₀.aliases.entries.mem_entries_iff.mpr ((listed_start_iff hload hstart).mpr ⟨?_, hname⟩)
    rintro rfl
    exact htrim (by decide +kernel)

/-- A record with one trimmed name and one with blanks around it. -/
theorem listed_addressable_padded :
    let c := exact .standard
    let loaded : SavedState :=
      { aliases := TextMap.ofList [(" g ", "print hi"), ("h", "print x")] }
    let store := Store.memory { state := loaded }
    ∃ s, store.load.1 = .ok loaded ∧ Session.start c.config store = .ok s ∧
      s.aliases.list reservedAlias = .ok [(" g ", "print hi"), ("h", "print x")] ∧
      ¬ s.aliases.Addressable " g " "print hi" ∧ s.aliases.Addressable "h" "print x" ∧
      s.aliases.lookup " g " = none := by
  intro c loaded store
  let s : Session Rat := Session.ofSaved c.config store loaded
  have hlist : s.aliases.list reservedAlias = .ok [(" g ", "print hi"), ("h", "print x")] := by
    decide +kernel
  have hload : store.load.1 = .ok loaded := rfl
  have hstart : Session.start c.config store = .ok s := rfl
  obtain ⟨⟨listed, hlisted, h⟩, -⟩ := listed_addressable_iff hload hstart (.between .refl)
  obtain rfl := Except.ok.inj (hlist.symm.trans hlisted)
  refine ⟨s, hload, hstart, hlist, ?_, ?_, by decide +kernel⟩
  · exact fun hg => absurd ((h _ _ (by decide)).1.mp hg) (by decide +kernel)
  · exact (h _ _ (by decide)).1.mpr (by decide +kernel)

end Console

end CommandConsole

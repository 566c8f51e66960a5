/-!
# CommandConsole.TextMap — maps from texts to texts

A `TextMap` keeps its entries in increasing order of their keys, by code points, each key once. Two
maps with the same entries are therefore equal.

* `find?_insert`, `find?_erase`, `find?_empty`: what each operation does to a look-up.
* `insert_sorted`: inserting keeps the order.
* `ofList_entries`: a map is the map of its entries.
-/

namespace CommandConsole

/-- Entries in increasing order of their keys. -/
abbrev Sorted (entries : List (String × String)) : Prop :=
  entries.Pairwise fun a b => a.1 < b.1

/-- A map from texts to texts, its entries in increasing order of their keys. -/
structure TextMap where
  entries : List (String × String)
  sorted : Sorted entries
deriving DecidableEq

namespace TextMap

/-- The map without entries. -/
def empty : TextMap := ⟨[], .nil⟩

instance : EmptyCollection TextMap := ⟨empty⟩
instance : Inhabited TextMap := ⟨empty⟩

theorem ext_entries {m n : TextMap} (h : m.entries = n.entries) : m = n := by
  cases m; cases n; simp_all

/-- The text stored under a key. -/
def find? (m : TextMap) (key : String) : Option String :=
  (m.entries.find? (·.1 == key)).map (·.2)

/-- Places an entry by its key, over an entry with the same key. -/
def insertEntry (key value : String) : List (String × String) → List (String × String)
  | [] => [(key, value)]
  | e :: es =>
    if key < e.1 then (key, value) :: e :: es
    else if e.1 < key then e :: insertEntry key value es
    else (key, value) :: es

theorem mem_insertEntry {key value : String} {es : List (String × String)} {e : String × String}
    (h : e ∈ insertEntry key value es) : e = (key, value) ∨ e ∈ es := by
  induction es with
  | nil => simp_all [insertEntry]
  | cons a as ih =>
    unfold insertEntry at h
    split at h
    · simpa using h
    · split at h
      · rcases List.mem_cons.1 h with rfl | h
        · simp
        · rcases ih h with h | h <;> simp [h]
      · rcases List.mem_cons.1 h with h | h <;> simp [h]

theorem insert_sorted {key value : String} {es : List (String × String)} (h : Sorted es) :
    Sorted (insertEntry key value es) := by
  induction es with
  | nil => simp [insertEntry]
  | cons a as ih =>
    obtain ⟨ha, has⟩ := List.pairwise_cons.1 h
    unfold insertEntry
    split
    next hk =>
      refine List.pairwise_cons.2 ⟨fun b hb => ?_, h⟩
      rcases List.mem_cons.1 hb with rfl | hb
      · exact hk
      · exact String.lt_trans hk (ha b hb)
    next hk =>
      split
      next hk' =>
        refine List.pairwise_cons.2 ⟨fun b hb => ?_, ih has⟩
        rcases mem_insertEntry hb with rfl | hb
        · exact hk'
        · exact ha b hb
      next hk' =>
        refine List.pairwise_cons.2 ⟨fun b hb => ?_, has⟩
        have : key = a.1 := String.le_antisymm hk' hk
        exact this ▸ ha b hb

/-- Stores a text under a key, over the one stored before. -/
def insert (m : TextMap) (key value : String) : TextMap :=
  ⟨insertEntry key value m.entries, insert_sorted m.sorted⟩

/-- Removes a key. -/
def erase (m : TextMap) (key : String) : TextMap :=
  ⟨m.entries.filter (·.1 != key), m.sorted.filter _⟩

/-- The map of a list of entries; of two with one key the later counts. -/
def ofList (entries : List (String × String)) : TextMap :=
  entries.foldl (fun m e => m.insert e.1 e.2) empty

/-- The number of entries. -/
def size (m : TextMap) : Nat := m.entries.length

/-- Whether there is no entry. -/
def isEmpty (m : TextMap) : Bool := m.entries.isEmpty

/-- Whether a key has an entry. -/
def contains (m : TextMap) (key : String) : Bool := (m.find? key).isSome

@[simp] theorem find?_empty (key : String) : empty.find? key = none := rfl

theorem find?_insert (m : TextMap) (key value k : String) :
    (m.insert key value).find? k = if k = key then some value else m.find? k := by
  obtain ⟨es, h⟩ := m
  simp only [find?, insert]
  induction es with
  | nil =>
    by_cases hk : k = key
    · simp [insertEntry, hk]
    · simp [insertEntry, hk, Ne.symm hk]
  | cons a as ih =>
    obtain ⟨_, has⟩ := List.pairwise_cons.1 h
    unfold insertEntry
    split
    next =>
      by_cases hk : k = key
      · simp [hk]
      · simp [hk, Ne.symm hk, List.find?_cons]
    next hka =>
      split
      next hak =>
        by_cases hk : a.1 = k
        · have : k ≠ key := fun h => String.lt_irrefl key ((hk.trans h) ▸ hak)
          simp [hk, this]
        · simp [hk, ih has]
      next hak =>
        have hke : key = a.1 := String.le_antisymm hak hka
        by_cases hk : k = key
        · simp [hk]
        · simp [hk, Ne.symm hk, ← hke]

theorem find?_erase (m : TextMap) (key k : String) :
    (m.erase key).find? k = if k = key then none else m.find? k := by
  obtain ⟨es, h⟩ := m
  simp only [find?, erase]
  induction es with
  | nil => simp
  | cons a as ih =>
    obtain ⟨_, has⟩ := List.pairwise_cons.1 h
    have ih := ih has
    by_cases hak : a.1 = key
    · by_cases hk : k = key
      · simp [hk]
      · simpa [hak, hk, Ne.symm hk] using ih
    · by_cases hk : a.1 = k
      · have : k ≠ key := fun h => hak (hk.trans h)
        simp [hk, this]
      · simpa [hak, hk] using ih

/-- Removing a key that is not there changes nothing. -/
theorem erase_of_find?_none {m : TextMap} {key : String} (h : m.find? key = none) :
    m.erase key = m := by
  refine ext_entries (List.filter_eq_self.mpr fun e he => ?_)
  have hne := List.find?_eq_none.mp (Option.map_eq_none_iff.mp h) e he
  simpa using hne

theorem insertEntry_of_forall_lt {key : String} {es : List (String × String)}
    (h : ∀ e ∈ es, e.1 < key) (value : String) :
    insertEntry key value es = es ++ [(key, value)] := by
  induction es with
  | nil => rfl
  | cons a as ih =>
    obtain ⟨ha, has⟩ := List.forall_mem_cons.mp h
    rw [insertEntry, if_neg (String.lt_asymm ha), if_pos ha, ih has, List.cons_append]

/-- Entries in order that all come after those of a map go behind them. -/
theorem entries_foldl_insert {m : TextMap} {es : List (String × String)}
    (h : Sorted (m.entries ++ es)) :
    (es.foldl (fun m e => m.insert e.1 e.2) m).entries = m.entries ++ es := by
  induction es generalizing m with
  | nil => exact (List.append_nil _).symm
  | cons e es ih =>
    have hlast : (m.insert e.1 e.2).entries = m.entries ++ [e] :=
      insertEntry_of_forall_lt (fun a ha => (List.pairwise_append.mp h).2.2 a ha e
        List.mem_cons_self) e.2
    rw [List.append_cons] at h
    rw [List.foldl_cons, ih (by rwa [hlast]), hlast, List.append_assoc]
    rfl

/-- The map of a map's entries is the map. -/
theorem ofList_entries (m : TextMap) : ofList m.entries = m :=
  ext_entries (entries_foldl_insert (m := empty) m.sorted)

end TextMap

end CommandConsole

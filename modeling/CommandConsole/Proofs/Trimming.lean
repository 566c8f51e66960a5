import CommandConsole.AliasTable
import Mathlib.Data.List.DropRight

/-!
# CommandConsole.Proofs.Trimming — what trimming takes away

Trimming takes the blanks at both ends of a text and nothing else. So it changes nothing when it is
done again, blanks behind a text make no difference to it, and a text that neither starts nor ends
with a blank stays as it is.

* `Text.trim_trim`: trimming again changes nothing.
* `Text.exists_trim`: what it takes from a text that does not start with a blank.
* `Text.EndsSolid`, `Text.exists_endsSolid`: a text up to the blanks at its end.
* `Text.trim_eq_self`, `Text.trim_word`: texts that stay as they are.
* `AliasTable.lookup_trim`: a table is asked for a line as for the line trimmed.
-/

namespace CommandConsole

namespace Text

theorem trimChars_eq_rdropWhile (cs : List Char) :
    trimChars cs = (cs.dropWhile isBlank).rdropWhile isBlank := rfl

theorem mem_of_mem_trimChars {c : Char} {cs : List Char} (h : c ∈ trimChars cs) : c ∈ cs :=
  List.dropWhile_subset isBlank ((List.rdropWhile_prefix isBlank _).subset h)

theorem isBlank_of_isDigit {c : Char} (h : c.isDigit = true) : isBlank c = false := by
  have hcode : ∀ n < 10, blanks.containsCode (48 + n) = false := by decide
  have bounds : 48 ≤ c.toNat ∧ c.toNat ≤ 57 := by
    simpa [Char.isDigit, UInt32.le_iff_toNat_le] using h
  have hc := hcode (c.toNat - 48) (by omega)
  rwa [Nat.add_sub_cancel' bounds.1] at hc

theorem dropWhile_trimChars (cs : List Char) :
    (trimChars cs).dropWhile isBlank = trimChars cs := by
  refine List.dropWhile_eq_self_iff.mpr fun hl => ?_
  have hfront : trimChars cs <+: cs.dropWhile isBlank := List.rdropWhile_prefix isBlank _
  -- the first character left is the first one that is not blank
  rw [hfront.getElem hl]
  exact List.dropWhile_get_zero_not isBlank cs (hl.trans_le hfront.length_le)

/-- Trimming again changes nothing. -/
@[simp] theorem trim_trim (s : String) : trim (trim s) = trim s := by
  refine String.toList_inj.mp ?_
  rw [toList_trim, toList_trim, trimChars_eq_rdropWhile, dropWhile_trimChars]
  exact List.rdropWhile_idempotent isBlank _

theorem trimChars_append {blank : List Char} (h : ∀ c ∈ blank, isBlank c = true)
    (cs : List Char) : trimChars (cs ++ blank) = trimChars cs := by
  have hend (front : List Char) :
      (front ++ blank).rdropWhile isBlank = front.rdropWhile isBlank := by
    unfold List.rdropWhile
    rw [List.reverse_append, List.dropWhile_append_of_pos fun c hc => h c (List.mem_reverse.mp hc)]
  rw [trimChars_eq_rdropWhile, trimChars_eq_rdropWhile, List.dropWhile_append]
  split
  · next hempty => rw [List.isEmpty_iff.mp hempty, List.dropWhile_eq_nil_iff.mpr h]
  · exact hend _

theorem trimChars_eq_nil_iff {cs : List Char} :
    trimChars cs = [] ↔ ∀ c ∈ cs, isBlank c = true := by
  constructor
  · intro h c hc
    rw [trimChars_eq_rdropWhile, List.rdropWhile_eq_nil_iff] at h
    rw [← List.takeWhile_append_dropWhile (p := isBlank) (l := cs)] at hc
    rcases List.mem_append.mp hc with hc | hc
    · exact List.mem_takeWhile_imp hc
    · exact h c hc
  · intro h
    rw [← List.nil_append cs, trimChars_append h]
    rfl

/-- A text that does not start with a blank has only blanks behind what trimming leaves. -/
theorem exists_trim {c : Char} (hc : isBlank c = false) (cs : List Char) :
    ∃ blank, (∀ d ∈ blank, isBlank d = true) ∧ c :: cs = trimChars (c :: cs) ++ blank := by
  refine ⟨(c :: cs).rtakeWhile isBlank, fun d hd => List.mem_rtakeWhile_imp hd, ?_⟩
  rw [trimChars_eq_rdropWhile, List.dropWhile_cons_of_neg (by simp [hc]),
    List.rdropWhile_append_rtakeWhile]

theorem trim_eq_empty_iff {s : String} : trim s = "" ↔ ∀ c ∈ s.toList, isBlank c = true := by
  rw [← trimChars_eq_nil_iff, ← toList_trim, ← String.toList_inj]
  rfl

/-- The text ends with a character that is not blank. -/
def EndsSolid (s : String) : Prop := ∃ c, s.toList.getLast? = some c ∧ isBlank c = false

theorem EndsSolid.behind {s : String} (h : EndsSolid s) (front : String) :
    EndsSolid (front ++ s) := by
  obtain ⟨c, hlast, hc⟩ := h
  exact ⟨c, by rw [String.toList_append, List.getLast?_append, hlast]; rfl, hc⟩

/-- Where a text ends so, its last part does, if there is any. -/
theorem EndsSolid.of_behind {front s : String} (h : EndsSolid (front ++ s)) (hs : s ≠ "") :
    EndsSolid s := by
  obtain ⟨c, hlast, hc⟩ := h
  rw [String.toList_append, List.getLast?_append_of_ne_nil _ (mt String.toList_eq_nil_iff.mp hs)]
    at hlast
  exact ⟨c, hlast, hc⟩

theorem EndsSolid.trim_ne {s : String} (h : EndsSolid s) : trim s ≠ "" := by
  obtain ⟨c, hlast, hc⟩ := h
  intro hempty
  have hblank := trim_eq_empty_iff.mp hempty c (List.mem_of_getLast? hlast)
  exact Bool.false_ne_true (hc.symm.trans hblank)

/-- A text with something in it ends so, up to blanks. -/
theorem exists_endsSolid {s : String} (h : trim s ≠ "") : ∃ front blank, s = front ++ blank ∧
    EndsSolid front ∧ ∀ c ∈ blank.toList, isBlank c = true := by
  have hne : s.toList.rdropWhile isBlank ≠ [] := fun hnil =>
    h (trim_eq_empty_iff.mpr (List.rdropWhile_eq_nil_iff.mp hnil))
  refine ⟨String.ofList (s.toList.rdropWhile isBlank), String.ofList (s.toList.rtakeWhile isBlank),
    ?_, ⟨_, ?_, by simpa using List.rdropWhile_last_not isBlank s.toList hne⟩, ?_⟩
  · refine String.toList_inj.mp ?_
    rw [String.toList_append, String.toList_ofList, String.toList_ofList,
      List.rdropWhile_append_rtakeWhile]
  · rw [String.toList_ofList]
    exact List.getLast?_eq_some_getLast hne
  · rw [String.toList_ofList]
    exact fun c hc => List.mem_rtakeWhile_imp hc

theorem trim_append {s blank : String} (h : ∀ c ∈ blank.toList, isBlank c = true) :
    trim (s ++ blank) = trim s := by
  refine String.toList_inj.mp ?_
  rw [toList_trim, toList_trim, String.toList_append, trimChars_append h]

/-- A text without blanks at its ends is as it is when it is trimmed. -/
theorem trim_eq_self {s : String} {c : Char} (hfirst : s.toList.head? = some c)
    (hc : isBlank c = false) (hlast : EndsSolid s) : trim s = s := by
  refine String.toList_inj.mp ?_
  obtain ⟨d, hlast, hd⟩ := hlast
  rw [toList_trim, trimChars_eq_rdropWhile]
  cases hs : s.toList with
  | nil => rfl
  | cons c' cs =>
    rw [hs] at hfirst hlast
    obtain rfl := Option.some.inj hfirst
    rw [List.dropWhile_cons_of_neg (by simp [hc]), List.rdropWhile_eq_self_iff]
    intro hne
    rw [List.getLast?_eq_some_getLast hne] at hlast
    rw [Option.some.inj hlast, hd]
    exact Bool.false_ne_true

/-- A word is as it is when it is trimmed. -/
theorem trim_word {s : String} (hs : s ≠ "") (h : ∀ c ∈ s.toList, isBlank c = false) :
    trim s = s := by
  have hne := mt String.toList_eq_nil_iff.mp hs
  have hlast := List.getLast?_eq_some_getLast hne
  exact trim_eq_self (List.head?_eq_some_head hne) (h _ (List.head_mem hne))
    ⟨_, hlast, h _ (List.mem_of_getLast? hlast)⟩

end Text

theorem AliasTable.lookup_trim (table : AliasTable) (line : String) :
    table.lookup (Text.trim line) = table.lookup line := by
  unfold lookup
  rw [Text.trim_trim]

theorem AliasTable.expand_trim_eq_none {table : AliasTable} {line : String}
    (h : table.lookup line = none) : table.expand (Text.trim line) = none := by
  rw [expand, lookup_trim, h]
  rfl

end CommandConsole

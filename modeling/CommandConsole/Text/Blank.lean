import CommandConsole.CharSet
import CommandConsole.Text.Pieces

/-!
# CommandConsole.Text.Blank — blank characters, trimming and words

A character is blank when it has the Unicode property `White_Space`.

* `trim` removes the blank characters at both ends of a text; `toList_trim` reads it on lists.
* `words` lists the maximal runs of characters that are not blank.
-/

namespace CommandConsole.Text

/-- The twenty-five characters with the Unicode property `White_Space`. -/
def blanks : CharSet :=
  ⟨[9, 5, 18, 1, 100, 1, 26, 1, 5599, 1, 2431, 11, 29, 2, 5, 1, 47, 1, 4000, 1]⟩

/-- Whether a character is blank. -/
def isBlank (c : Char) : Bool := blanks.contains c

/-- A list of characters without the blank ones at its ends. -/
def trimChars (cs : List Char) : List Char :=
  ((cs.dropWhile isBlank).reverse.dropWhile isBlank).reverse

/-- A text without the blank characters at its ends. -/
def trim (s : String) : String :=
  String.ofList (trimChars s.toList)

@[simp] theorem toList_trim (s : String) : (trim s).toList = trimChars s.toList := by
  simp [trim]

theorem length_trimChars_le (cs : List Char) : (trimChars cs).length ≤ cs.length := by
  have front := (cs.dropWhile_sublist isBlank).length_le
  have back := ((cs.dropWhile isBlank).reverse.dropWhile_sublist isBlank).length_le
  rw [List.length_reverse] at back
  rw [trimChars, List.length_reverse]
  omega

theorem length_trim_le (s : String) : (trim s).length ≤ s.length := by
  rw [← String.length_toList, ← String.length_toList, toList_trim]
  exact length_trimChars_le s.toList

/-- Whether a text holds nothing but blank characters. -/
def isBlankText (s : String) : Bool :=
  s.toList.all isBlank

/-- The words of a text: its maximal runs of characters that are not blank. -/
def words (s : String) : List String :=
  ((pieces isBlank s.toList).filter (!·.isEmpty)).map String.ofList

end CommandConsole.Text

import CommandConsole.CharSet

/-!
# CommandConsole.Text.WordClass — digits and word characters

The characters with the Unicode general category `Nd`, and those that can be part of a word:
alphabetic characters, marks, decimal digits, connector punctuation and joiners, as of Unicode 16.
-/

namespace CommandConsole.Text

/-- The runs of decimal digits. -/
def digitRuns : List Nat :=
  [
    48, 10, 1574, 10, 134, 10, 198, 10, 412, 10, 118, 10, 118, 10, 118, 10, 118, 10, 118, 10, 118,
    10, 118, 10, 118, 10, 118, 10, 96, 10, 118, 10, 70, 10, 278, 10, 70, 10, 1862, 10, 38, 10,
    300, 10, 128, 10, 166, 10, 6, 10, 182, 10, 86, 10, 134, 10, 6, 10, 35270, 10, 678, 10, 38, 10,
    198, 10, 22, 10, 86, 10, 406, 10, 21270, 10, 1414, 10, 2182, 10, 6, 10, 796, 10, 128, 10, 60,
    10, 144, 10, 278, 10, 342, 10, 118, 10, 374, 10, 102, 10, 6, 20, 76, 10, 422, 10, 102, 10,
    662, 10, 86, 10, 246, 10, 70, 10, 422, 10, 16854, 10, 2342, 10, 86, 10, 134, 10, 534, 10,
    24438, 10, 2772, 50, 2368, 10, 422, 10, 502, 10, 247, 10, 853, 10, 4758, 10]

/-- Part 1 of the runs of word characters. -/
def wordRuns1 : List Nat :=
  [
    48, 10, 7, 26, 4, 1, 1, 26, 47, 1, 10, 1, 4, 1, 5, 23, 1, 31, 1, 458, 4, 12, 14, 5, 7, 1, 1,
    1, 17, 117, 1, 2, 2, 4, 1, 1, 6, 1, 1, 3, 1, 1, 1, 20, 1, 83, 1, 139, 1, 173, 1, 38, 2, 1, 6,
    41, 8, 45, 1, 1, 1, 2, 1, 2, 1, 1, 8, 27, 4, 4, 29, 11, 5, 74, 4, 102, 1, 8, 2, 10, 1, 19, 2,
    1, 16, 59, 2, 101, 14, 54, 4, 1, 2, 1, 2, 46, 18, 28, 4, 11, 5, 24, 1, 6, 8, 75, 1, 129, 2,
    10, 1, 19, 1, 8, 2, 2, 2, 22, 1, 7, 1, 1, 3, 4, 2, 9, 2, 2, 2, 4, 8, 1, 4, 2, 1, 5, 2, 12, 10,
    1, 1, 1, 2, 3, 1, 6, 4, 2, 2, 22, 1, 7, 1, 2, 1, 2, 1, 2, 2, 1, 1, 5, 4, 2, 2, 3, 3, 1, 7, 4,
    1, 1, 7, 16, 11, 3, 1, 9, 1, 3, 1, 22, 1, 7, 1, 2, 1, 5, 2, 10, 1, 3, 1, 3, 2, 1, 15, 4, 2,
    10, 9, 7, 1, 3, 1, 8, 2, 2, 2, 22, 1, 7, 1, 2, 1, 5, 2, 9, 2, 2, 2, 3, 7, 3, 4, 2, 1, 5, 2,
    10, 1, 1, 16, 2, 1, 6, 3, 3, 1, 4, 3, 2, 1, 1, 1, 2, 3, 2, 3, 3, 3, 12, 4, 5, 3, 3, 1, 4, 2,
    1, 6, 1, 14, 10, 16, 13, 1, 3, 1, 23, 1, 16, 2, 9, 1, 3, 1, 4, 7, 2, 1, 3, 2, 1, 2, 4, 2, 10,
    16, 4, 1, 8, 1, 3, 1, 23, 1, 10, 1, 5, 2, 9, 1, 3, 1, 4, 7, 2, 6, 2, 1, 4, 2, 10, 1, 3, 12,
    13, 1, 3, 1, 51, 1, 3, 1, 5, 5, 4, 7, 5, 2, 10, 10, 6, 1, 3, 1, 18, 3, 24, 1, 9, 1, 1, 2, 7,
    3, 1, 4, 6, 1, 1, 1, 8, 6, 10, 2, 2, 13, 58, 5, 15, 1, 10, 39, 2, 1, 1, 1, 5, 1, 24, 1, 1, 1,
    23, 2, 5, 1, 1, 1, 7, 1, 10, 2, 4, 32, 1, 23, 2, 6, 10, 11, 1, 1, 1, 1, 1, 4, 10, 1, 36, 4,
    20, 1, 18, 1, 36, 9, 1, 57, 74, 6, 78, 2, 38, 1, 1, 5, 1]

/-- Part 2 of the runs of word characters. -/
def wordRuns2 : List Nat :=
  [
    2, 43, 1, 333, 1, 4, 2, 7, 1, 1, 1, 4, 2, 41, 1, 4, 2, 33, 1, 4, 2, 7, 1, 1, 1, 4, 2, 15, 1,
    57, 1, 4, 2, 67, 2, 3, 32, 16, 16, 86, 2, 6, 3, 620, 2, 17, 1, 26, 5, 75, 3, 11, 7, 22, 9, 22,
    11, 20, 12, 13, 1, 3, 1, 2, 12, 84, 3, 1, 4, 2, 2, 10, 33, 3, 1, 11, 6, 89, 7, 43, 5, 70, 10,
    31, 1, 12, 4, 12, 10, 40, 2, 5, 11, 44, 4, 26, 6, 10, 38, 28, 4, 63, 1, 29, 2, 11, 6, 10, 13,
    1, 8, 31, 49, 77, 3, 10, 17, 9, 12, 116, 12, 56, 8, 10, 3, 49, 2, 11, 5, 43, 2, 3, 16, 3, 1,
    39, 5, 534, 2, 6, 2, 38, 2, 6, 2, 8, 1, 1, 1, 1, 1, 1, 1, 31, 2, 53, 1, 7, 1, 1, 3, 3, 1, 7,
    3, 4, 2, 6, 4, 13, 5, 3, 1, 7, 15, 2, 49, 2, 19, 1, 28, 1, 13, 1, 16, 13, 51, 33, 17, 1, 4, 1,
    2, 10, 1, 1, 3, 5, 6, 1, 1, 1, 1, 1, 1, 4, 1, 11, 2, 4, 5, 5, 4, 1, 17, 41, 813, 52, 1814,
    229, 6, 9, 12, 38, 1, 1, 5, 1, 2, 56, 7, 1, 15, 24, 9, 7, 1, 7, 1, 7, 1, 7, 1, 7, 1, 7, 1, 7,
    1, 7, 1, 32, 47, 1, 469, 3, 25, 15, 1, 5, 2, 5, 4, 86, 2, 2, 2, 3, 1, 90, 1, 4, 5, 43, 1, 94,
    17, 32, 48, 16, 512, 6592, 64, 22157, 67, 46, 2, 269, 3, 28, 20, 51, 1, 10, 1, 115, 37, 9, 2,
    103, 2, 67, 2, 2, 1, 1, 1, 8, 21, 54, 4, 1, 19, 52, 12, 70, 10, 10, 6, 24, 3, 1, 1, 49, 2, 36,
    12, 29, 3, 65, 14, 11, 6, 31, 1, 55, 9, 14, 2, 10, 6, 23, 3, 73, 24, 3, 2, 16, 2, 5, 10, 6, 2,
    6, 2, 6, 9, 7, 1, 7, 1, 43, 1, 14, 6, 123, 1, 2, 2, 10, 6, 11172, 12, 23, 4, 49, 8452, 366, 2,
    106, 38, 7, 12, 5, 5, 12, 1, 13, 1, 5, 1, 1, 1, 2, 1, 2, 1, 108, 33, 363, 18, 64, 2, 54, 40,
    12, 4, 16, 16, 16, 3, 2, 24, 3, 32, 5, 1, 135, 19, 10]

/-- Part 3 of the runs of word characters. -/
def wordRuns3 : List Nat :=
  [
    7, 26, 4, 1, 1, 26, 11, 89, 3, 6, 2, 6, 2, 6, 2, 3, 35, 12, 1, 26, 1, 19, 1, 2, 1, 15, 2, 14,
    34, 123, 69, 53, 136, 1, 130, 29, 3, 49, 15, 1, 31, 32, 13, 30, 5, 43, 5, 30, 2, 36, 4, 8, 1,
    5, 42, 158, 2, 10, 6, 36, 4, 36, 4, 40, 8, 52, 12, 11, 1, 15, 1, 7, 1, 2, 1, 11, 1, 15, 1, 7,
    1, 2, 3, 52, 12, 311, 9, 22, 10, 8, 24, 6, 1, 42, 1, 9, 69, 6, 2, 1, 1, 44, 1, 2, 3, 1, 2, 23,
    10, 23, 9, 31, 65, 19, 1, 2, 10, 22, 10, 26, 70, 56, 6, 2, 64, 4, 1, 2, 5, 8, 1, 3, 1, 29, 2,
    3, 4, 1, 32, 29, 3, 29, 35, 8, 1, 30, 25, 54, 10, 22, 10, 19, 13, 18, 110, 73, 55, 51, 13, 51,
    13, 40, 8, 10, 6, 38, 3, 5, 1, 23, 250, 42, 1, 2, 3, 2, 16, 3, 55, 33, 10, 1, 8, 33, 31, 22,
    42, 21, 27, 23, 9, 71, 31, 16, 9, 60, 7, 1, 13, 25, 7, 10, 6, 53, 1, 10, 4, 4, 8, 36, 2, 1, 9,
    69, 4, 4, 1, 13, 1, 1, 35, 18, 1, 37, 6, 4, 62, 7, 1, 1, 1, 4, 1, 15, 1, 10, 7, 59, 5, 10, 6,
    4, 1, 8, 2, 2, 2, 22, 1, 7, 1, 2, 1, 5, 1, 10, 2, 2, 2, 3, 2, 1, 6, 1, 5, 7, 2, 7, 3, 5, 11,
    10, 1, 1, 2, 1, 1, 38, 1, 10, 1, 1, 2, 1, 1, 4, 1, 8, 13, 2, 29, 75, 5, 10, 4, 4, 30, 70, 1,
    1, 8, 10, 166, 54, 2, 9, 23, 6, 34, 65, 3, 1, 11, 10, 38, 57, 7, 10, 6, 20, 28, 27, 2, 15, 4,
    10, 6, 7, 185, 59, 101, 74, 21, 8, 2, 1, 2, 8, 1, 2, 1, 30, 1, 2, 2, 9, 12, 10, 70, 8, 2, 46,
    2, 8, 1, 2, 27, 63, 8, 1, 8, 74, 3, 1, 18, 73, 199, 33, 15, 10, 6, 9, 1, 45, 1, 9, 15, 10, 24,
    30, 2, 22, 1, 14, 73, 7, 1, 2, 1, 44, 3, 1, 1, 2, 1, 9, 8, 10, 6, 6, 1, 2, 1, 37, 1, 2, 1, 6,
    7, 10, 310, 23, 9, 17, 1, 41, 3, 5, 13, 11]

/-- Part 4 of the runs of word characters. -/
def wordRuns4 : List Nat :=
  [
    85, 1, 79, 922, 102, 111, 17, 196, 2636, 97, 15, 1072, 16, 22, 10, 3995, 5, 583, 6841, 58,
    1734, 569, 7, 31, 1, 10, 6, 79, 1, 10, 6, 30, 2, 5, 11, 55, 9, 4, 12, 10, 9, 21, 5, 19, 432,
    45, 3, 10, 198, 64, 128, 75, 4, 57, 7, 17, 64, 2, 1, 2, 11, 2, 14, 6136, 8, 1238, 41, 10,
    8935, 4, 1, 7, 1, 2, 1, 291, 15, 1, 29, 3, 2, 1, 14, 4, 8, 396, 2308, 107, 5, 13, 3, 9, 7, 10,
    3, 2, 4177, 10, 518, 46, 2, 23, 542, 5, 3, 6, 8, 8, 2, 7, 30, 4, 148, 3, 443, 85, 1, 71, 1, 2,
    2, 1, 2, 2, 2, 4, 1, 12, 1, 1, 1, 7, 1, 65, 1, 4, 2, 8, 1, 7, 1, 28, 1, 4, 1, 5, 1, 1, 3, 7,
    1, 340, 2, 25, 1, 25, 1, 31, 1, 25, 1, 31, 1, 25, 1, 31, 1, 25, 1, 31, 1, 25, 1, 8, 2, 50,
    512, 55, 4, 50, 8, 1, 14, 1, 22, 5, 1, 15, 1104, 31, 6, 6, 213, 7, 1, 17, 2, 7, 1, 2, 1, 5, 5,
    62, 33, 1, 112, 45, 3, 14, 2, 10, 4, 1, 321, 31, 17, 58, 470, 42, 214, 43, 485, 7, 1, 4, 1, 2,
    1, 15, 1, 197, 11, 7, 41, 76, 4, 10, 1190, 4, 1, 27, 1, 2, 1, 1, 2, 1, 1, 10, 1, 4, 1, 1, 1,
    1, 6, 1, 4, 1, 1, 1, 1, 1, 1, 3, 1, 2, 1, 1, 2, 1, 1, 1, 1, 1, 1, 1, 1, 1, 1, 2, 1, 1, 2, 4,
    1, 7, 1, 4, 1, 4, 1, 1, 1, 10, 1, 17, 5, 3, 1, 5, 1, 17, 628, 26, 6, 26, 6, 26, 2662, 10,
    1030, 42720, 32, 4154, 6, 222, 2, 5762, 14, 7473, 15, 622, 2466, 542, 1506, 4939, 5, 4192,
    712016, 240]

/-- The runs of word characters. -/
def wordRuns : List Nat :=
  wordRuns1 ++ wordRuns2 ++ wordRuns3 ++ wordRuns4

/-- The decimal digits of all scripts. -/
def decimalDigits : CharSet := ⟨digitRuns⟩

/-- The characters that can be part of a word. -/
def wordChars : CharSet := ⟨wordRuns⟩

/-- Whether a character can be part of a word. -/
def isWord (c : Char) : Bool := wordChars.contains c

end CommandConsole.Text

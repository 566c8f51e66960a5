/-!
# CommandConsole.CharSet — sets of characters

A set of characters is given by run lengths over the code points: so many outside the set, then so
many inside it, and so on in turn; what follows the last run is on the side that is then due. Every
list of lengths is a set, so no operation has an invariant to keep.

* `contains_union`, `contains_inter`, `contains_diff`, `contains_symmDiff`, `contains_complement`:
  the operations are those on sets.
* `contains_only`, `contains_range`, `contains_notLineBreak`: the basic sets.
* `ofRuns`: how tables write sets.
-/

namespace CommandConsole

/-- The side that a number is on, the first run being on the given side. -/
def sideIn (side : Bool) (n : Nat) : List Nat → Bool
  | [] => side
  | run :: runs => if n < run then side else sideIn (!side) (n - run) runs

/-- Puts numbers in front of runs; they lengthen the first run if they are on the same side. -/
def lengthenRuns (same : Bool) (count : Nat) : List Nat → List Nat
  | [] => if same then [] else [count]
  | run :: runs => if same then (count + run) :: runs else count :: run :: runs

theorem sideIn_lengthenRuns {side next : Bool} {n count : Nat} {runs : List Nat} :
    sideIn side n (lengthenRuns (side == next) count runs) =
      if n < count then side else sideIn next (n - count) runs := by
  cases hs : side == next with
  | true =>
    have hs : side = next := by simpa using hs
    subst hs
    cases runs with
    | nil => simp [lengthenRuns, sideIn]
    | cons run runs =>
      simp only [lengthenRuns, sideIn, if_true]
      by_cases h : n < count
      · simp [h, Nat.lt_of_lt_of_le h (Nat.le_add_right count run)]
      · by_cases h' : n < count + run
        · have : n - count < run := by omega
          simp [h, h', this]
        · have : ¬ n - count < run := by omega
          simp [h, h', this, Nat.sub_add_eq]
  | false =>
    have hs : next = !side := by cases side <;> cases next <;> simp_all
    subst hs
    cases runs <;> simp [lengthenRuns, sideIn]

/-- Combines the sides that two lists of runs give to a number. -/
def combineRuns (f : Bool → Bool → Bool) (s t : Bool) : List Nat → List Nat → List Nat
  | [], [] => []
  | a :: as, [] => lengthenRuns (f s t == f (!s) t) a (combineRuns f (!s) t as [])
  | [], b :: bs => lengthenRuns (f s t == f s (!t)) b (combineRuns f s (!t) [] bs)
  | a :: as, b :: bs =>
    if a < b then lengthenRuns (f s t == f (!s) t) a (combineRuns f (!s) t as ((b - a) :: bs))
    else if b < a then lengthenRuns (f s t == f s (!t)) b (combineRuns f s (!t) ((a - b) :: as) bs)
    else lengthenRuns (f s t == f (!s) (!t)) a (combineRuns f (!s) (!t) as bs)
termination_by as bs => as.length + bs.length

theorem sideIn_combineRuns (f : Bool → Bool → Bool) (s t : Bool) (as bs : List Nat) (n : Nat) :
    sideIn (f s t) n (combineRuns f s t as bs) = f (sideIn s n as) (sideIn t n bs) := by
  fun_induction combineRuns f s t as bs generalizing n with
  | case1 => rfl
  | case2 s t a as ih =>
    rw [sideIn_lengthenRuns, ih]
    by_cases h : n < a <;> simp [sideIn, h]
  | case3 s t b bs ih =>
    rw [sideIn_lengthenRuns, ih]
    by_cases h : n < b <;> simp [sideIn, h]
  | case4 s t a as b bs hab ih =>
    rw [sideIn_lengthenRuns, ih]
    by_cases h : n < a
    · simp [sideIn, h, Nat.lt_trans h hab]
    · by_cases h' : n < b
      · have : n - a < b - a := by omega
        simp [sideIn, h, h', this]
      · have : ¬ n - a < b - a := by omega
        have hr : n - a - (b - a) = n - b := by omega
        simp [sideIn, h, h', this, hr]
  | case5 s t a as b bs hab hba ih =>
    rw [sideIn_lengthenRuns, ih]
    by_cases h : n < b
    · simp [sideIn, h, Nat.lt_trans h hba]
    · by_cases h' : n < a
      · have : n - b < a - b := by omega
        simp [sideIn, h, h', this]
      · have : ¬ n - b < a - b := by omega
        have hr : n - b - (a - b) = n - a := by omega
        simp [sideIn, h, h', this, hr]
  | case6 s t a as b bs hab hba ih =>
    rw [sideIn_lengthenRuns, ih]
    have : a = b := by omega
    subst this
    by_cases h : n < a <;> simp [sideIn, h]

/-- A set of characters, given by runs outside and inside it in turn. -/
structure CharSet where
  runs : List Nat
deriving DecidableEq, Repr

namespace CharSet

/-- Whether a code point is in a set. -/
def containsCode (s : CharSet) (n : Nat) : Bool := sideIn false n s.runs

/-- Whether a character is in a set. -/
def contains (s : CharSet) (c : Char) : Bool := s.containsCode c.toNat

/-- The empty set. -/
def none : CharSet := ⟨[]⟩

/-- Every character. -/
def all : CharSet := ⟨[0]⟩

/-- The characters from one to another. -/
def range (first last : Char) : CharSet := ⟨[first.toNat, last.toNat + 1 - first.toNat]⟩

/-- The set of one character. -/
def only (c : Char) : CharSet := range c c

/-- The characters for which a condition on being in two sets holds; it must fail for those in
neither. -/
def combine (f : Bool → Bool → Bool) (a b : CharSet) : CharSet :=
  ⟨combineRuns f false false a.runs b.runs⟩

/-- The characters in either of two sets. -/
def union (a b : CharSet) : CharSet := combine (· || ·) a b

/-- The characters in both of two sets. -/
def inter (a b : CharSet) : CharSet := combine (· && ·) a b

/-- The characters of the first set that are not in the second. -/
def diff (a b : CharSet) : CharSet := combine (fun x y => x && !y) a b

/-- The characters in exactly one of two sets. -/
def symmDiff (a b : CharSet) : CharSet := combine (· ^^ ·) a b

/-- The characters that are not in a set. -/
def complement (a : CharSet) : CharSet := diff all a

/-- The characters of a list. -/
def ofList (cs : List Char) : CharSet := cs.foldl (fun s c => s.union (only c)) none

/-- The characters in any of several sets. -/
def unions (sets : List CharSet) : CharSet := sets.foldl union none

/-- The numbers that letters write: those of a number are its digits to base 26, the last of them a
capital. -/
def readRuns (n : Nat) : List Char → List Nat
  | [] => []
  | c :: cs =>
    if c ≤ 'Z' then (26 * n + (c.toNat - 65)) :: readRuns 0 cs
    else readRuns (26 * n + (c.toNat - 97)) cs

/-- The set whose runs are written by letters. -/
def ofRuns (text : String) : CharSet := ⟨readRuns 0 text.toList⟩

/-- Every character but the line break. -/
def notLineBreak : CharSet := complement (only '\n')

/-- The ten ASCII digits. -/
def asciiDigit : CharSet := range '0' '9'

/-- The ASCII characters. -/
def ascii : CharSet := range '\x00' '\x7f'

/-- The ASCII letters. -/
def asciiLetter : CharSet := union (range 'A' 'Z') (range 'a' 'z')

/-- The ASCII characters that can be part of a word. -/
def asciiWord : CharSet := unions [asciiDigit, asciiLetter, only '_']

/-- The ASCII characters that are blank. -/
def asciiBlank : CharSet := union (range '\t' '\r') (only ' ')

section Lemmas

variable {a b : CharSet} {c : Char}

theorem contains_combine {f : Bool → Bool → Bool} (h : f false false = false) :
    (combine f a b).contains c = f (a.contains c) (b.contains c) := by
  have := sideIn_combineRuns f false false a.runs b.runs c.toNat
  rw [h] at this
  exact this

@[simp] theorem contains_none : none.contains c = false := rfl

@[simp] theorem contains_all : all.contains c = true := by
  simp [contains, containsCode, all, sideIn]

@[simp] theorem contains_union : (union a b).contains c = (a.contains c || b.contains c) :=
  contains_combine rfl

@[simp] theorem contains_inter : (inter a b).contains c = (a.contains c && b.contains c) :=
  contains_combine rfl

@[simp] theorem contains_diff : (diff a b).contains c = (a.contains c && !b.contains c) :=
  contains_combine rfl

@[simp] theorem contains_symmDiff : (symmDiff a b).contains c = (a.contains c ^^ b.contains c) :=
  contains_combine rfl

@[simp] theorem contains_complement : (complement a).contains c = !a.contains c := by
  simp [complement]

@[simp] theorem contains_range {first last : Char} :
    (range first last).contains c = decide (first.toNat ≤ c.toNat ∧ c.toNat ≤ last.toNat) := by
  by_cases h : c.toNat < first.toNat
  · have : ¬ first.toNat ≤ c.toNat := by omega
    simp [contains, containsCode, range, sideIn, h, this]
  · by_cases h' : c.toNat - first.toNat < last.toNat + 1 - first.toNat
    · have : first.toNat ≤ c.toNat ∧ c.toNat ≤ last.toNat := by omega
      simp [contains, containsCode, range, sideIn, h, h', this]
    · have : ¬ c.toNat ≤ last.toNat := by omega
      simp [contains, containsCode, range, sideIn, h, h', this]

@[simp] theorem contains_only {d : Char} : (only d).contains c = decide (c = d) := by
  rw [only, contains_range]
  congr 1
  refine propext ⟨fun h => ?_, fun h => h ▸ ⟨Nat.le_refl _, Nat.le_refl _⟩⟩
  exact Char.ext (UInt32.toNat_inj.1 (Nat.le_antisymm h.2 h.1))

@[simp] theorem contains_ofList {cs : List Char} :
    (ofList cs).contains c = decide (c ∈ cs) := by
  suffices h : ∀ s : CharSet, (cs.foldl (fun s d => s.union (only d)) s).contains c =
      (s.contains c || decide (c ∈ cs)) by simpa [ofList] using h none
  intro s
  induction cs generalizing s with
  | nil => simp
  | cons d cs ih => simp [ih, Bool.or_assoc]

@[simp] theorem contains_notLineBreak : notLineBreak.contains c = decide (c ≠ '\n') := by
  simp [notLineBreak]

end Lemmas

/-! ### The ranges of a set -/

/-- Puts a range in front of ranges; the two run together if nothing lies between them. -/
def addRange (first count : Nat) (ranges : List (Nat × Nat)) : List (Nat × Nat) :=
  match count, ranges with
  | 0, ranges => ranges
  | count + 1, [] => [(first, first + count)]
  | count + 1, (next, last) :: ranges =>
    if next = first + count + 1 then (first, last) :: ranges
    else (first, first + count) :: (next, last) :: ranges

/-- The ranges of the numbers below a bound that runs put inside. -/
def rangesFrom (bound : Nat) (side : Bool) (start : Nat) : List Nat → List (Nat × Nat)
  | [] => if side then addRange start (bound - start) [] else []
  | run :: runs =>
    let stop := min bound (start + run)
    let ranges := rangesFrom bound (!side) stop runs
    if side then addRange start (stop - start) ranges else ranges

/-- The first and the last code points of the ranges that make up a set, in order. -/
def ranges (s : CharSet) : List (Nat × Nat) := rangesFrom 0x110000 false 0 s.runs

end CharSet

end CommandConsole

/-!
# CommandConsole.History — recalling entered lines

The history is a list of entered lines with at most one of them recalled. The lines before the
recalled one and those after it are kept on either side of it, the nearest first, so a step in
either direction moves one line across.

* `entries` lists every line, oldest first.
* `back`, `forward`: a step to the next older or newer line.
* `commit`, `edit`: what entering a line and changing the composed line do.
-/

namespace CommandConsole

/-- Entered lines around the one that is recalled, if one is. -/
structure History where
  /-- Lines older than the recalled one, newest first. -/
  older : List String := []
  recalled : Option String := none
  /-- Lines newer than the recalled one, oldest first. -/
  newer : List String := []
deriving DecidableEq, Repr, Inhabited

namespace History

/-- The history without lines. -/
def empty : History := {}

/-- The older lines, the recalled one among them. -/
def settled (h : History) : List String :=
  match h.recalled with
  | none => h.older
  | some line => line :: h.older

/-- Remembers an entered line as the newest; lines newer than the recalled one are forgotten. -/
def commit (h : History) (line : String) : History :=
  { older := line :: h.settled }

/-- Recalls the next older line, if there is one. -/
def back (h : History) : Option String × History :=
  match h.older with
  | [] => (none, h)
  | line :: rest =>
    (some line, { older := rest, recalled := some line, newer := h.recalled.toList ++ h.newer })

/-- Recalls the next newer line; past the newest, nothing is recalled. -/
def forward (h : History) : Option String × History :=
  match h.newer with
  | [] => (none, { older := h.settled })
  | line :: rest => (some line, { older := h.settled, recalled := some line, newer := rest })

/-- Settles on the recalled line because it is being changed; newer lines are forgotten. -/
def edit (h : History) : History :=
  { older := h.settled }

/-- Whether there is an older line to recall. -/
def canGoBack (h : History) : Bool := !h.older.isEmpty

/-- Whether there is a newer line to recall. -/
def canGoForward (h : History) : Bool := !h.newer.isEmpty

/-- Every line, oldest first. -/
def entries (h : History) : List String :=
  h.older.reverse ++ h.recalled.toList ++ h.newer

end History

end CommandConsole

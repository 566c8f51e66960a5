import CommandConsole.Proofs.Codec
import CommandConsole.Store

/-!
# CommandConsole.Proofs.Files — files give back what was written

A path is followed through directories only. So a text that is written to a place that is none is in
no path's way, and the path leads to it again.

* `FileTree.node?_put`, `FileTree.follow_put`: what places hold after one has been set, and where
  paths lead.
* `FileTree.of_write`: a text that was written is read.
* `FileTree.Writable`: paths that can be written to; `FileTree.Writable.save`: they can be saved to,
  again and again.
* `FileStore.load_of_save`: a state that was saved is loaded.
* `SavedState.json_roundtrip`: the saved form holds the state, and the file gives it back.
-/

namespace CommandConsole

namespace FileTree

variable {t t' : FileTree} {l target : Location} {n : FileNode} {path content : String}

/-! ### Places -/

theorem node?_put (hl : l ≠ []) (n : FileNode) (place : Location) :
    (t.put l n).node? place = if place = l then some n else t.node? place := by
  unfold put node?
  by_cases hplace : place = l
  · subst hplace
    rw [if_neg hl, if_pos rfl]
    simp
  · have hfind : ((l, n) :: t.nodes.filter (·.1 != l)).find? (·.1 == place) =
        t.nodes.find? (·.1 == place) := by
      rw [List.find?_cons_of_neg (by simpa using Ne.symm hplace)]
      refine List.find?_filter.trans (congrArg (List.find? · t.nodes) (funext fun e => ?_))
      -- what is taken out of the list lies elsewhere
      by_cases he : e.1 = place <;> simp [he, hplace]
    rw [if_neg hplace, hfind]

theorem ne_nil_of_node? (h : t.node? l ≠ some .directory) : l ≠ [] := by
  rintro rfl
  exact h rfl

/-! ### Paths -/

/-- Where a component of a path leads. -/
def enter (l : Location) (c : String) : Location :=
  if c = "." then l else if c = ".." then l.dropLast else l ++ [c]

/-- Only directories are passed, and only through names that are not too long. -/
theorem follow_cons_iff {c : String} {cs : List String} : t.follow l (c :: cs) = .ok target ↔
    t.node? l = some .directory ∧ c.utf8ByteSize ≤ 255 ∧ t.follow (enter l c) cs = .ok target := by
  rw [follow]
  cases t.node? l with
  | none => simp
  | some n =>
    cases n with
    | directory =>
      by_cases hlength : 255 < c.utf8ByteSize
      · simp [hlength, Nat.not_le.mpr hlength]
      · simp [hlength, Nat.not_lt.mp hlength, enter]
    | text _ => simp
    | binary _ => simp

/-- A path that leads to a place that is no directory leads there whatever the place holds. -/
theorem follow_put {cs : List String} (h : t.follow l cs = .ok target)
    (htarget : t.node? target ≠ some .directory) (n : FileNode) :
    (t.put target n).follow l cs = .ok target := by
  induction cs generalizing l with
  | nil => exact h
  | cons c cs ih =>
    obtain ⟨hdirectory, hlength, hrest⟩ := follow_cons_iff.mp h
    -- only directories are passed, so the place itself is not
    have hne : l ≠ target := fun heq => htarget (heq ▸ hdirectory)
    refine follow_cons_iff.mpr ⟨?_, hlength, ih hrest⟩
    rw [node?_put (ne_nil_of_node? htarget), if_neg hne, hdirectory]

/-- Only paths that are not empty, hold no zero character and are not too long are followed. -/
theorem followPath_iff {last : Bool} : t.followPath path last = .ok target ↔
    (path ≠ "" ∧ path.toList.contains '\x00' = false ∧ path.utf8ByteSize ≤ 4095) ∧
      t.follow (t.origin path) (if last then components path else (components path).dropLast) =
        .ok target := by
  unfold followPath
  by_cases hempty : path = ""
  · simp [hempty]
  cases hzero : path.toList.contains '\x00' with
  | true => simp [hempty]
  | false =>
    by_cases hlong : 4095 < path.utf8ByteSize
    · simp [hempty, hlong, Nat.not_le.mpr hlong]
    · simp [hempty, hlong, Nat.not_lt.mp hlong]

theorem followPath_put {last : Bool} (h : t.followPath path last = .ok target)
    (htarget : t.node? target ≠ some .directory) (n : FileNode) :
    (t.put target n).followPath path last = .ok target := by
  obtain ⟨hpath, hfollow⟩ := followPath_iff.mp h
  exact followPath_iff.mpr ⟨hpath, follow_put hfollow htarget n⟩

theorem locate_eq (hslash : endsWithSlash path = false) :
    t.locate path = t.followPath path true := by
  unfold locate
  rw [hslash]
  cases t.followPath path true <;> rfl

/-- The path leads to a place that is no directory, which need not hold a file yet. -/
def Writable (t : FileTree) (path : String) : Prop :=
  ∃ target, t.locate path = .ok target ∧ t.node? target ≠ some .directory ∧
    endsWithSlash path = false

/-- Only such a path is written to, and its place gets the text. -/
theorem exists_put_of_write (h : t.write path content = .ok t') :
    ∃ target, t.locate path = .ok target ∧ t.node? target ≠ some .directory ∧
      endsWithSlash path = false ∧ t' = t.put target (.text content) := by
  unfold write at h
  cases hslash : endsWithSlash path with
  | true =>
    rw [hslash, if_pos rfl] at h
    cases hfollow : t.followPath path false with
    | error e =>
      rw [hfollow] at h
      cases h
    | ok l =>
      rw [hfollow] at h
      -- whatever lies there, such a path cannot be written to
      dsimp only [bind, Except.bind] at h
      split at h <;> cases h
  | false =>
    rw [hslash] at h
    cases hlocate : t.locate path with
    | error e =>
      rw [hlocate] at h
      cases h
    | ok target =>
      rw [hlocate] at h
      dsimp only [bind, Except.bind] at h
      rw [if_neg Bool.false_ne_true] at h
      split at h
      · cases h
      · next htarget =>
        cases h
        exact ⟨target, rfl, htarget, rfl, rfl⟩

theorem Writable.exists_write (h : t.Writable path) (content : String) :
    ∃ t', t.write path content = .ok t' := by
  obtain ⟨target, hlocate, htarget, hslash⟩ := h
  refine ⟨t.put target (.text content), ?_⟩
  unfold write
  rw [hslash, if_neg Bool.false_ne_true, hlocate]
  dsimp only [bind, Except.bind]
  split
  · next hdirectory => exact absurd hdirectory htarget
  · rfl

/-- What was written is there and is read, and it can be written again. -/
theorem of_write (h : t.write path content = .ok t') :
    (t'.exists_ path = true ∧ t'.read path = .ok content) ∧ t'.Writable path := by
  obtain ⟨target, hlocate, htarget, hslash, rfl⟩ := exists_put_of_write h
  have hback : (t.put target (.text content)).locate path = .ok target := by
    rw [locate_eq hslash] at hlocate ⊢
    exact followPath_put hlocate htarget _
  have hnode : (t.put target (.text content)).node? target = some (.text content) := by
    rw [node?_put (ne_nil_of_node? htarget), if_pos rfl]
  refine ⟨⟨?_, ?_⟩, target, hback, by rw [hnode]; exact nofun, hslash⟩
  · unfold exists_
    rw [hback]
    dsimp only
    rw [hnode]
    rfl
  · unfold read
    rw [hback]
    dsimp only [bind, Except.bind]
    rw [hnode]
    rfl

/-- A file that is saved is written once the directory it lies in is there. -/
theorem exists_write_of_save (h : (t.save path content).1 = .ok ()) :
    ∃ made : FileTree, made.write path content = .ok (t.save path content).2 := by
  unfold save at h ⊢
  rcases hmade : t.makeParent path with ⟨e | _, made⟩
  · rw [hmade] at h
    cases h
  · rw [hmade] at h
    dsimp only at h ⊢
    cases hwrite : made.write path content with
    | error e =>
      rw [hwrite] at h
      cases h
    | ok written => exact ⟨made, hwrite⟩

/-! ### Files that can be written -/

/-- The last step of a path is made from a directory. -/
theorem follow_of_append {cs : List String} {c : String} (h : t.follow l (cs ++ [c]) = .ok target) :
    ∃ above, t.follow l cs = .ok above ∧ t.node? above = some .directory ∧
      target = enter above c := by
  induction cs generalizing l with
  | nil =>
    obtain ⟨hdirectory, -, hrest⟩ := follow_cons_iff.mp h
    exact ⟨l, rfl, hdirectory, (Except.ok.inj hrest).symm⟩
  | cons d cs ih =>
    obtain ⟨hdirectory, hlength, hrest⟩ := follow_cons_iff.mp h
    obtain ⟨above, habove, hlast⟩ := ih hrest
    exact ⟨above, follow_cons_iff.mpr ⟨hdirectory, hlength, habove⟩, hlast⟩

/-- Components that stay where they are can be left out. -/
theorem follow_filter {cs : List String} (h : t.follow l cs = .ok target) :
    t.follow l (cs.filter (· ≠ ".")) = .ok target := by
  induction cs generalizing l with
  | nil => exact h
  | cons c cs ih =>
    obtain ⟨hdirectory, hlength, hrest⟩ := follow_cons_iff.mp h
    by_cases hc : c = "."
    · subst hc
      exact ih hrest
    · rw [List.filter_cons_of_pos (by simpa using hc)]
      exact follow_cons_iff.mpr ⟨hdirectory, hlength, ih hrest⟩

/-- Nothing has to be made for a directory that is there. -/
theorem makeDirectoriesFrom_of_follow {cs : List String} (h : t.follow l cs = .ok target)
    (hdirectory : t.node? target = some .directory) :
    makeDirectoriesFrom l cs.reverse t = (.ok (), t) := by
  have hnames : t.namesDirectory l cs = true := by
    unfold namesDirectory isDirectory
    rw [h]
    dsimp only
    rw [hdirectory]
  have hmake : t.makeDirectory l cs = .error .alreadyExists := by
    unfold makeDirectory
    rw [h]
    dsimp only [bind, Except.bind]
    rw [hdirectory]
    rfl
  cases hrev : cs.reverse with
  | nil => rfl
  | cons c above =>
    unfold makeDirectoriesFrom
    rw [← hrev, List.reverse_reverse]
    dsimp only
    rw [hmake]
    dsimp only
    rw [hnames]
    rfl

/-- Nothing has to be made above a file that can be written. -/
theorem Writable.makeParent_eq (h : t.Writable path) : t.makeParent path = (.ok (), t) := by
  obtain ⟨target, hlocate, htarget, hslash⟩ := h
  rw [locate_eq hslash] at hlocate
  obtain ⟨-, hfollow⟩ := followPath_iff.mp hlocate
  rw [if_pos rfl] at hfollow
  unfold makeParent parentComponents
  cases hcs : components path with
  | nil => rfl
  | cons c cs =>
    rw [hcs] at hfollow
    dsimp only
    rcases List.eq_nil_or_concat cs with rfl | ⟨ds, d, rfl⟩
    · rfl
    · rw [List.concat_eq_append, ← List.cons_append] at hfollow
      obtain ⟨above, habove, hdirectory, hlast⟩ := follow_of_append hfollow
      have hd : d ≠ "." := by
        rintro rfl
        exact htarget ((congrArg t.node? hlast).trans hdirectory)
      have hparent : (c :: (ds.concat d).filter (· ≠ ".")).dropLast =
          c :: ds.filter (· ≠ ".") := by
        rw [List.concat_eq_append, List.filter_append, List.filter_cons_of_pos (by simpa using hd),
          List.filter_nil, ← List.cons_append, List.dropLast_concat]
      obtain ⟨hfirst, hlength, hrest⟩ := follow_cons_iff.mp habove
      rw [hparent]
      exact makeDirectoriesFrom_of_follow
        (follow_cons_iff.mpr ⟨hfirst, hlength, follow_filter hrest⟩) hdirectory

/-- A file that can be written can be saved, and written again. -/
theorem Writable.save (h : t.Writable path) (content : String) :
    (t.save path content).1 = .ok () ∧ (t.save path content).2.Writable path := by
  obtain ⟨t', hwrite⟩ := h.exists_write content
  have hsave : t.save path content = (.ok (), t') := by
    unfold FileTree.save
    rw [h.makeParent_eq]
    dsimp only
    rw [hwrite]
  rw [hsave]
  exact ⟨rfl, (of_write hwrite).2⟩

end FileTree

/-! ### Saved states -/

namespace FileStore

variable {f : FileStore} {state : SavedState}

theorem save_eq (f : FileStore) (state : SavedState) :
    (f.save state).1 = (f.tree.save f.path state.toJson).1.mapError .io ∧
      (f.save state).2.1 = { f with tree := (f.tree.save f.path state.toJson).2 } := by
  unfold save
  rcases f.tree.save f.path state.toJson with ⟨e | _, tree⟩ <;> exact ⟨rfl, rfl⟩

/-- A state that was saved is loaded, whatever the file held before. -/
theorem load_of_save (hsize : SavedState.isFontSize state.fontSize = true)
    (h : (f.save state).1 = .ok ()) : (f.save state).2.1.load.1 = .ok state := by
  obtain ⟨houtcome, hfile⟩ := f.save_eq state
  have hsave : (f.tree.save f.path state.toJson).1 = .ok () := by
    rw [houtcome] at h
    cases hsaved : (f.tree.save f.path state.toJson).1 with
    | ok _ => rfl
    | error e =>
      rw [hsaved] at h
      cases h
  obtain ⟨made, hwrite⟩ := FileTree.exists_write_of_save hsave
  obtain ⟨⟨hexists, hread⟩, -⟩ := FileTree.of_write hwrite
  rw [hfile]
  unfold load
  dsimp only
  rw [hexists, hread]
  dsimp only
  rw [SavedState.ofJson?_toJson hsize]
  rfl

/-- Saving to a file that can be written succeeds, and the file can be written again. -/
theorem save_of_writable (h : f.tree.Writable f.path) (state : SavedState) :
    (f.save state).1 = .ok () ∧ (f.save state).2.1.tree.Writable (f.save state).2.1.path := by
  obtain ⟨houtcome, hfile⟩ := f.save_eq state
  obtain ⟨hsave, hwritable⟩ := h.save state.toJson
  rw [houtcome, hsave, hfile]
  exact ⟨rfl, hwritable⟩

end FileStore

/-- **Round trip.** Whatever texts a state holds, its saved form holds the state again. So a file
gives back every state that it was saved to successfully, whatever it held before. -/
theorem SavedState.json_roundtrip {state : SavedState} (h : isFontSize state.fontSize = true) :
    ofJson? state.toJson = .ok state ∧
      ∀ f : FileStore, (f.save state).1 = .ok () → (f.save state).2.1.load.1 = .ok state :=
  ⟨ofJson?_toJson h, fun _ hsave => FileStore.load_of_save h hsave⟩

/-- The least font size, and texts with quotes, backslashes, control characters, nothing in them and
a character beyond the first plane, saved over a file that is no text. -/
theorem SavedState.json_roundtrip_odd :
    let state : SavedState :=
      { fontSize := -2147483648
        aliases := TextMap.ofList [("", "\"quoted\" \\ /"), ("😀\x7f", "\x00\x01\n\r\t\x08\x0c\x1f")]
        events := TextMap.ofList [("OnStartup", "")] }
    let f : FileStore :=
      { path := "dir//state.json"
        tree :=
          { nodes := [(["dir"], .directory), (["dir", "state.json"], .binary ⟨#[255]⟩)] } }
    isFontSize state.fontSize = true ∧ (f.save state).1 = .ok () ∧
      ofJson? state.toJson = .ok state ∧ (f.save state).2.1.load.1 = .ok state := by
  intro state f
  have hsize : isFontSize state.fontSize = true := by decide
  have hok : (f.save state).1.isOk = true := by decide +kernel
  have hsave : (f.save state).1 = .ok () := by
    cases h : (f.save state).1 with
    | ok _ => rfl
    | error e =>
      rw [h] at hok
      cases hok
  obtain ⟨hjson, hfile⟩ := json_roundtrip hsize
  exact ⟨hsize, hsave, hjson, hfile f hsave⟩

end CommandConsole

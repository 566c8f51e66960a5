import CommandConsole.Proofs.Course
import CommandConsole.Proofs.Reachable

/-!
# CommandConsole.Proofs.Depth — the depth counts expansions

The depth is one number that expansions raise and lower and that time exchanges for the one a
sequence was parked with. At every moment of every run it is the number of expansions on the path of
what happens then, back to the call of the host that it comes from. So an alias is refused where its
path has as many expansions as the limit allows, and only there.

* `Console.Accounted`: the depth and the paths agree, and keep to the limit.
* `Console.Course.accounted`: whatever is run keeps it so, at every moment.
* `Console.Course.founded`: all that stands on a path has been expanded there.
* `Console.Course.chain`: how far a chain of aliases runs.
* `Console.depth_accounting`: all this for every run of a console.
-/

namespace CommandConsole

/-- So many aliases lead from a line to a last one, each standing for the next line and nothing
else. The last line is no alias, so there is no cycle. -/
inductive AliasTable.Chain (table : AliasTable) : Nat → String → String → Prop
  | last {line : String} : table.expand (Text.trim line) = none → Chain table 0 line line
  | next {n : Nat} {line next last : String} : Text.trim line ≠ "" →
      table.expand (Text.trim line) = some [next] → Chain table n next last →
      Chain table (n + 1) line last

theorem AliasTable.Chain.expand_last {table : AliasTable} {n : Nat} {line last : String}
    (h : table.Chain n line last) : table.expand (Text.trim last) = none := by
  induction h with
  | last h => exact h
  | next _ _ _ ih => exact ih

variable {τ : Type} [Seconds τ]

namespace Console

/-- The depth is the number of expansions on the path of what is run, that of each parked sequence
is the number of those on its own path, and the limit is kept. -/
structure Accounted (c : Console τ) (path : Path) (s : Session τ) (origins : List Path) : Prop where
  depth_eq : s.depth = path.length
  depths_eq : s.sequencer.parked.map (·.depth) = origins.map List.length
  path_le : path.length ≤ c.config.maxAliasDepth
  origins_le : ∀ origin ∈ origins, origin.length ≤ c.config.maxAliasDepth

/-- The depth is accounted for at a moment, and an alias is refused at the limit and only there. -/
def AccountedAt (c : Console τ) (m : Moment τ) : Prop :=
  (∃ origins, c.Accounted m.path m.session origins) ∧
    match m.occasion with
    | .starts _ => True
    | .expands _ => m.path.length < c.config.maxAliasDepth
    | .refuses _ => m.path.length = c.config.maxAliasDepth

/-- Every name on the path is that of an alias that has been expanded there. -/
def Founded (moments : List (Moment τ)) (path : Path) : Prop :=
  ∀ front name rest, path = front ++ name :: rest →
    ∃ m ∈ moments, m.occasion = .expands name ∧ m.path = front

variable {c : Console τ} {s t : Session τ} {job : Job τ} {path : Path}
  {origins origins' : List Path} {moments : List (Moment τ)} {outcome : Outcome}

/-! ### What keeps the depth accounted for -/

namespace Accounted

omit [Seconds τ] in
/-- Only the depth and the depths in the queue matter. -/
theorem of_eq (h : c.Accounted path s origins) (hd : t.depth = s.depth)
    (hp : t.sequencer.parked = s.sequencer.parked) : c.Accounted path t origins :=
  ⟨hd.trans h.depth_eq, by rw [hp, h.depths_eq], h.path_le, h.origins_le⟩

omit [Seconds τ] in
theorem reportFailure (h : c.Accounted path s origins) (outcome : Outcome) :
    c.Accounted path (s.reportFailure outcome) origins := by
  cases outcome <;> exact h.of_eq rfl rfl

omit [Seconds τ] in
theorem starts (h : c.Accounted path s origins) (op : Op τ) :
    c.AccountedAt ⟨.starts op, path, s⟩ := ⟨⟨origins, h⟩, trivial⟩

omit [Seconds τ] in
theorem starts_only (h : c.Accounted path s origins) (op : Op τ) :
    ∀ m ∈ [⟨.starts op, path, s⟩], c.AccountedAt m := List.forall_mem_singleton.mpr (h.starts op)

omit [Seconds τ] in
theorem starts_cons (h : c.Accounted path s origins) (op : Op τ)
    (hm : ∀ m ∈ moments, c.AccountedAt m) :
    ∀ m ∈ ⟨.starts op, path, s⟩ :: moments, c.AccountedAt m :=
  List.forall_mem_cons.mpr ⟨h.starts op, hm⟩

omit [Seconds τ] in
theorem expanding (h : c.Accounted path s origins) (hd : ¬ c.config.maxAliasDepth ≤ s.depth)
    (name : String) (count : Nat) :
    c.Accounted (path ++ [name]) (s.expanding name count) origins := by
  have hdepth := h.depth_eq
  have hlength : (path ++ [name]).length = path.length + 1 := List.length_append
  refine ⟨?_, h.depths_eq, ?_, h.origins_le⟩
  · show s.depth + 1 = _
    rw [hlength, hdepth]
  · rw [hlength]
    omega

theorem park (h : c.Accounted path s origins) (statements : List String) :
    c.Accounted path (s.park statements) (origins ++ [path]) := by
  refine ⟨h.depth_eq, ?_, h.path_le, ?_⟩
  · show (s.sequencer.parked ++ [ParkedSequence.mk statements s.depth]).map (·.depth) = _
    rw [List.map_append, List.map_append, h.depths_eq]
    exact congrArg (origins.map List.length ++ [·]) h.depth_eq
  · intro origin ho
    rcases List.mem_append.mp ho with ho | ho
    · exact h.origins_le origin ho
    · rw [List.mem_singleton.mp ho]
      exact h.path_le

omit [Seconds τ] in
/-- A sequence is resumed on its own path. -/
theorem resuming {q : ParkedSequence} {behind : List ParkedSequence} {origin : Path}
    (h : c.Accounted path s (origin :: origins)) (hp : s.sequencer.parked = q :: behind) :
    c.Accounted origin (s.resuming q) [] := by
  have hdepths := h.depths_eq
  rw [hp, List.map_cons, List.map_cons] at hdepths
  exact ⟨(List.cons.inj hdepths).1, rfl, h.origins_le origin (by simp), by simp⟩

omit [Seconds τ] in
/-- What a resumed sequence leaves parked goes in front of the others, with its paths. -/
theorem putBack {q : ParkedSequence} {behind : List ParkedSequence} {origin : Path}
    (h : c.Accounted path s (origin :: origins)) (hp : s.sequencer.parked = q :: behind)
    (ht : c.Accounted origin t origins') :
    c.Accounted path (t.putBack behind s.depth) (origins' ++ origins) := by
  have hdepths := h.depths_eq
  rw [hp, List.map_cons, List.map_cons] at hdepths
  refine ⟨h.depth_eq, ?_, h.path_le, ?_⟩
  · show (t.sequencer.parked ++ behind).map (·.depth) = _
    rw [List.map_append, List.map_append, ht.depths_eq, (List.cons.inj hdepths).2]
  · intro p hm
    rcases List.mem_append.mp hm with hm | hm
    · exact ht.origins_le p hm
    · exact h.origins_le p (by simp [hm])

end Accounted

/-- **Steps**: whatever is run keeps the depth accounted for, at every moment. -/
theorem Course.accounted (h : c.Course job path s origins moments outcome t origins')
    (ha : c.Accounted path s origins) :
    c.Accounted path t origins' ∧ ∀ m ∈ moments, c.AccountedAt m := by
  induction h with
  | @primitive p _ s t _ _ hp =>
    have hu := p.uniform_apply c.config
    have hd := hu.depth_eq s
    have hq := hu.parked_eq s
    rw [hp] at hd hq
    exact ⟨ha.of_eq hd hq, ha.starts_only _⟩
  | blank => exact ⟨ha, ha.starts_only _⟩
  | refused _ _ _ hd =>
    refine ⟨ha, ha.starts_cons _ (List.forall_mem_singleton.mpr ⟨⟨_, ha⟩, ?_⟩)⟩
    exact Nat.le_antisymm ha.path_le (ha.depth_eq ▸ hd)
  | @expanded _ name statements _ s t _ _ _ _ _ _ _ hd _ ih =>
    obtain ⟨ht, hm⟩ := ih (ha.expanding hd name statements.length)
    have hback : t.depth - 1 = s.depth := by
      rw [ht.depth_eq, ha.depth_eq, List.length_append, List.length_singleton,
        Nat.add_sub_cancel]
    refine ⟨⟨hback.trans ha.depth_eq, ht.depths_eq, ha.path_le, ht.origins_le⟩, ?_⟩
    refine ha.starts_cons _ (List.forall_mem_cons.mpr ⟨⟨⟨_, ha⟩, ?_⟩, hm⟩)
    exact Nat.lt_of_not_le (ha.depth_eq ▸ hd)
  | unresolved => exact ⟨ha, ha.starts_only _⟩
  | help => exact ⟨ha.of_eq rfl rfl, ha.starts_only _⟩
  | invoked _ _ _ _ _ ih =>
    obtain ⟨ht, hm⟩ := ih (ha.of_eq rfl rfl)
    exact ⟨ht, ha.starts_cons _ hm⟩
  | execute _ ih =>
    obtain ⟨ht, hm⟩ := ih ha
    exact ⟨ht.reportFailure _, ha.starts_cons _ hm⟩
  | runSequence _ ih =>
    obtain ⟨ht, hm⟩ := ih ha
    exact ⟨ht, ha.starts_cons _ hm⟩
  | tick _ ih =>
    obtain ⟨ht, hm⟩ := ih (ha.of_eq rfl rfl)
    exact ⟨ht, ha.starts_cons _ hm⟩
  | unbound => exact ⟨ha, ha.starts_only _⟩
  | fired _ _ ih =>
    obtain ⟨ht, hm⟩ := ih (ha.of_eq rfl rfl)
    exact ⟨ht.reportFailure _, ha.starts_cons _ hm⟩
  | ignored => exact ⟨ha.of_eq rfl rfl, ha.starts_only _⟩
  | submitted _ _ ih =>
    obtain ⟨ht, hm⟩ := ih (ha.of_eq rfl rfl)
    exact ⟨ht.reportFailure _, ha.starts_cons _ hm⟩
  | nil => exact ⟨ha, List.forall_mem_nil _⟩
  | park => exact ⟨ha.park _, List.forall_mem_nil _⟩
  | goesOn _ _ _ _ ih ih' =>
    obtain ⟨ht, hm⟩ := ih ha
    obtain ⟨hu, hm'⟩ := ih' (ht.reportFailure _)
    exact ⟨hu, List.forall_mem_append.mpr ⟨hm, hm'⟩⟩
  | abort _ _ _ ih => exact ih ha
  | done => exact ⟨ha, List.forall_mem_nil _⟩
  | fail => exact ⟨ha, List.forall_mem_nil _⟩
  | perform _ _ ih ih' =>
    obtain ⟨ht, hm⟩ := ih ha
    obtain ⟨hu, hm'⟩ := ih' ht
    exact ⟨hu, List.forall_mem_append.mpr ⟨hm, hm'⟩⟩
  | look _ ih => exact ih ha
  | settled => exact ⟨ha, List.forall_mem_nil _⟩
  | resumed _ hp _ _ ih ih' =>
    obtain ⟨ht, hm⟩ := ih (ha.resuming hp)
    obtain ⟨hu, hm'⟩ := ih' (ha.putBack hp (ht.reportFailure _))
    exact ⟨hu, List.forall_mem_append.mpr ⟨hm, hm'⟩⟩

/-! ### What stands on a path -/

namespace Founded

variable {all : List (Moment τ)}

omit [Seconds τ] in
theorem nil (all : List (Moment τ)) : Founded all [] := fun front name rest h => by simp at h

omit [Seconds τ] in
theorem mono (h : Founded moments path) (hsub : moments ⊆ all) : Founded all path := by
  intro front name rest hpath
  obtain ⟨m, hm, hname⟩ := h front name rest hpath
  exact ⟨m, hsub hm, hname⟩

omit [Seconds τ] in
theorem concat (h : Founded all path) {m : Moment τ} (hm : m ∈ all) {name : String}
    (hname : m.occasion = .expands name) (hpath : m.path = path) :
    Founded all (path ++ [name]) := by
  intro front name' rest heq
  rcases List.eq_nil_or_concat rest with rfl | ⟨rest, last, rfl⟩
  · obtain ⟨rfl, hlast⟩ := List.append_inj' heq rfl
    obtain rfl : name = name' := by simpa using hlast
    exact ⟨m, hm, hname, hpath⟩
  · rw [List.concat_eq_append, ← List.cons_append, ← List.append_assoc] at heq
    exact h front name' rest (List.append_inj' heq rfl).1

end Founded

/-- **Paths**: every name on a path, in a run and in what it leaves parked, is that of an alias that
has been expanded there. -/
theorem Course.founded (h : c.Course job path s origins moments outcome t origins')
    {all : List (Moment τ)} (hsub : moments ⊆ all) (hpath : Founded all path)
    (ho : ∀ origin ∈ origins, Founded all origin) :
    (∀ m ∈ moments, Founded all m.path) ∧ ∀ origin ∈ origins', Founded all origin := by
  induction h with
  | primitive | blank | unresolved | help | unbound | ignored =>
    exact ⟨List.forall_mem_singleton.mpr hpath, ho⟩
  | nil | done | fail | settled => exact ⟨List.forall_mem_nil _, ho⟩
  | refused =>
    exact ⟨List.forall_mem_cons.mpr ⟨hpath, List.forall_mem_singleton.mpr hpath⟩, ho⟩
  | expanded _ _ _ _ _ ih =>
    obtain ⟨-, hsub⟩ := List.cons_subset.mp hsub
    obtain ⟨hexpands, hsub⟩ := List.cons_subset.mp hsub
    obtain ⟨hm, ho'⟩ := ih hsub (hpath.concat hexpands rfl rfl) ho
    exact ⟨List.forall_mem_cons.mpr ⟨hpath, List.forall_mem_cons.mpr ⟨hpath, hm⟩⟩, ho'⟩
  | invoked _ _ _ _ _ ih | execute _ ih | runSequence _ ih | tick _ ih | fired _ _ ih
  | submitted _ _ ih =>
    obtain ⟨hm, ho'⟩ := ih (List.cons_subset.mp hsub).2 hpath ho
    exact ⟨List.forall_mem_cons.mpr ⟨hpath, hm⟩, ho'⟩
  | park =>
    exact ⟨List.forall_mem_nil _,
      List.forall_mem_append.mpr ⟨ho, List.forall_mem_singleton.mpr hpath⟩⟩
  | goesOn _ _ _ _ ih ih' | perform _ _ ih ih' =>
    obtain ⟨hsub, hsub'⟩ := List.append_subset.mp hsub
    obtain ⟨hm, ho'⟩ := ih hsub hpath ho
    obtain ⟨hm', ho''⟩ := ih' hsub' hpath ho'
    exact ⟨List.forall_mem_append.mpr ⟨hm, hm'⟩, ho''⟩
  | abort _ _ _ ih | look _ ih => exact ih hsub hpath ho
  | resumed _ _ _ _ ih ih' =>
    obtain ⟨hsub, hsub'⟩ := List.append_subset.mp hsub
    obtain ⟨horigin, ho⟩ := List.forall_mem_cons.mp ho
    obtain ⟨hm, ho'⟩ := ih hsub horigin (List.forall_mem_nil _)
    obtain ⟨hm', ho''⟩ := ih' hsub' hpath (List.forall_mem_append.mpr ⟨ho', ho⟩)
    exact ⟨List.forall_mem_append.mpr ⟨hm, hm'⟩, ho''⟩

/-! ### Chains of aliases -/

/-- A line that is an alias is refused at the limit, and otherwise its statements run. -/
theorem Course.of_alias {line : String} {statements : List String}
    (h : c.Course (.op (.dispatch line)) path s origins moments outcome t origins')
    (hline : Text.trim line ≠ "") (hs : s.aliases.expand (Text.trim line) = some statements) :
    (c.config.maxAliasDepth ≤ s.depth ∧
      moments = [⟨.starts (.dispatch line), path, s⟩, ⟨.refuses (Text.trim line), path, s⟩] ∧
      outcome = .error (.recursionLimit (Text.trim line) c.config.maxAliasDepth)) ∨
    ¬ c.config.maxAliasDepth ≤ s.depth ∧ ∃ moments' u,
      moments = ⟨.starts (.dispatch line), path, s⟩ ::
        ⟨.expands (Text.trim line), path, s⟩ :: moments' ∧
      c.Course (.statements statements) (path ++ [Text.trim line])
        (s.expanding (Text.trim line) statements.length) origins moments' outcome u origins' := by
  cases h with
  | blank hblank => exact absurd hblank hline
  | refused hname _ _ hd =>
    subst hname
    exact Or.inl ⟨hd, rfl, rfl⟩
  | expanded hname _ hs' hd hcourse =>
    subst hname
    rw [hs] at hs'
    cases hs'
    exact Or.inr ⟨hd, _, _, rfl, hcourse⟩
  | unresolved hname _ hnone =>
    subst hname
    rw [hs] at hnone
    cases hnone
  | help hname _ hnone =>
    subst hname
    rw [hs] at hnone
    cases hnone
  | invoked hname _ hnone =>
    subst hname
    rw [hs] at hnone
    cases hnone

/-- A single statement runs as a line, and passes on that an alias nests too deep. -/
theorem Course.of_single {statement : String}
    (h : c.Course (.statements [statement]) path s origins moments outcome t origins')
    (hw : s.sequencer.isWaiting = false) : ∃ outcome' u,
      c.Course (.op (.dispatch statement)) path s origins moments outcome' u origins' ∧
      ∀ e, outcome' = .error e → e.isRecursionLimit = true → outcome = .error e := by
  cases h with
  | park hwait =>
    rw [hw] at hwait
    cases hwait
  | goesOn _ ho hcourse hnil =>
    cases hnil
    rw [List.append_nil]
    refine ⟨_, _, hcourse, fun e he hlimit => ?_⟩
    rw [ho e he] at hlimit
    cases hlimit
  | abort _ _ hcourse => exact ⟨_, _, hcourse, fun _ he _ => he⟩

/-- **Chains**: a chain of aliases runs to its end if the path to the end keeps to the limit, and
otherwise an alias is refused before. -/
theorem Course.chain {table : AliasTable} {n : Nat} {line last : String}
    (hchain : table.Chain n line last) (htable : s.aliases = table)
    (hw : s.sequencer.isWaiting = false) (ha : c.Accounted path s origins)
    (h : c.Course (.op (.dispatch line)) path s origins moments outcome t origins') :
    (path.length + n ≤ c.config.maxAliasDepth → ∃ m ∈ moments,
      m.occasion = .starts (.dispatch last) ∧ m.path.length = path.length + n) ∧
    (c.config.maxAliasDepth < path.length + n →
      (∃ name, outcome = .error (.recursionLimit name c.config.maxAliasDepth)) ∧
        ∀ m ∈ moments, m.occasion ≠ .starts (.dispatch last)) := by
  induction hchain generalizing path s origins moments outcome t origins' with
  | last =>
    obtain ⟨rest, rfl⟩ := h.starts
    exact ⟨fun _ => ⟨_, List.mem_cons_self, rfl, rfl⟩,
      fun hlt => absurd ha.path_le (Nat.not_le.mpr hlt)⟩
  | @next n line next last hline hs hchain ih =>
    -- the lines of the chain are aliases, so none of them is the last one
    have hne : line ≠ last := by
      rintro rfl
      rw [hchain.expand_last] at hs
      cases hs
    have hdepth := ha.depth_eq
    rcases h.of_alias hline (htable ▸ hs) with ⟨hd, rfl, rfl⟩ | ⟨hd, moments', u, rfl, hcourse⟩
    · refine ⟨fun hle => by omega, fun _ => ⟨⟨_, rfl⟩, ?_⟩⟩
      refine List.forall_mem_cons.mpr ⟨?_, List.forall_mem_singleton.mpr nofun⟩
      rintro ⟨⟩
      exact hne rfl
    · obtain ⟨outcome', v, hnext, hpass⟩ := hcourse.of_single hw
      have hlength : (path ++ [Text.trim line]).length = path.length + 1 := List.length_append
      have hdeeper : (s.expanding (Text.trim line) [next].length).aliases = table := htable
      obtain ⟨hruns, hstops⟩ := ih hdeeper hw (ha.expanding hd _ _) hnext
      rw [hlength, Nat.add_right_comm, Nat.add_assoc] at hruns hstops
      refine ⟨fun hle => ?_, fun hlt => ?_⟩
      · obtain ⟨m, hm, hlast⟩ := hruns hle
        exact ⟨m, by simp [hm], hlast⟩
      · obtain ⟨⟨name, hout⟩, hm⟩ := hstops hlt
        refine ⟨⟨name, hpass _ hout rfl⟩, ?_⟩
        refine List.forall_mem_cons.mpr ⟨?_, List.forall_mem_cons.mpr ⟨nofun, hm⟩⟩
        rintro ⟨⟩
        exact hne rfl

/-- The end of a chain is run if and only if the path to it keeps to the limit; otherwise an alias
is refused, which ends the chain. -/
theorem Course.reaches_iff {n : Nat} {line last : String} (hchain : s.aliases.Chain n line last)
    (hw : s.sequencer.isWaiting = false) (ha : c.Accounted path s origins)
    (h : c.Course (.op (.dispatch line)) path s origins moments outcome t origins') :
    ((∃ m ∈ moments, m.occasion = .starts (.dispatch last)) ↔
      path.length + n ≤ c.config.maxAliasDepth) ∧
    (c.config.maxAliasDepth < path.length + n →
      ∃ name, outcome = .error (.recursionLimit name c.config.maxAliasDepth)) := by
  obtain ⟨hruns, hstops⟩ := h.chain hchain rfl hw ha
  refine ⟨⟨?_, fun hle => ?_⟩, fun hlt => (hstops hlt).1⟩
  · rintro ⟨m, hmem, hlast⟩
    by_contra hgt
    exact (hstops (Nat.lt_of_not_le hgt)).2 m hmem hlast
  · obtain ⟨m, hmem, hlast, -⟩ := hruns hle
    exact ⟨m, hmem, hlast⟩

/-! ### Histories -/

/-- A session between operations of the host, with the paths of what is parked, and everything that
has happened since the start. -/
inductive History (c : Console τ) : Session τ → List Path → List (Moment τ) → Prop
  | start {store : Store} {s : Session τ} :
      Session.start c.config store = .ok s → History c s [] []
  | after {op : Op τ} {s t : Session τ} {origins origins' : List Path}
      {moments moments' : List (Moment τ)} {outcome : Outcome} : History c s origins moments →
      c.Returns op s outcome t → c.Course (.op op) [] s origins moments' outcome t origins' →
      History c t origins' (moments ++ moments')

namespace History

theorem accounted (h : c.History s origins moments) :
    c.Accounted [] s origins ∧ ∀ m ∈ moments, c.AccountedAt m := by
  induction h with
  | start hstart =>
    obtain ⟨-, hq, hd⟩ := Session.of_start hstart
    exact ⟨⟨hd, by rw [hq]; rfl, Nat.zero_le _, List.forall_mem_nil _⟩, List.forall_mem_nil _⟩
  | after _ _ hcourse ih =>
    obtain ⟨ha, hm⟩ := ih
    obtain ⟨ht, hm'⟩ := hcourse.accounted ha
    exact ⟨ht, List.forall_mem_append.mpr ⟨hm, hm'⟩⟩

theorem founded (h : c.History s origins moments) :
    (∀ m ∈ moments, Founded moments m.path) ∧ ∀ origin ∈ origins, Founded moments origin := by
  induction h with
  | start => exact ⟨List.forall_mem_nil _, List.forall_mem_nil _⟩
  | @after _ _ _ _ _ moments moments' _ _ _ hcourse ih =>
    obtain ⟨hm, ho⟩ := ih
    have hleft {path : Path} (hp : Founded moments path) : Founded (moments ++ moments') path :=
      hp.mono (List.subset_append_left moments moments')
    obtain ⟨hm', ho'⟩ := hcourse.founded (List.subset_append_right _ _) (Founded.nil _)
      fun origin horigin => hleft (ho origin horigin)
    exact ⟨List.forall_mem_append.mpr ⟨fun m hmem => hleft (hm m hmem), hm'⟩, ho'⟩

/-- Every operation that ends goes on with the history. -/
theorem exists_after (h : c.History s origins moments) {op : Op τ}
    (hr : c.Returns op s outcome t) : ∃ moments' origins',
      c.Course (.op op) [] s origins moments' outcome t origins' ∧
        c.History t origins' (moments ++ moments') := by
  have hlen : origins.length = s.sequencer.parked.length := by
    simpa using (congrArg List.length h.accounted.1.depths_eq).symm
  obtain ⟨moments', origins', hcourse⟩ := hr.exists_course [] hlen
  exact ⟨moments', origins', hcourse, h.after hr hcourse⟩

end History

/-! ### The main statement -/

/-- **Depth accounting.** In every run of a console, whatever its handlers do: between operations the
depth is zero, and the depths in the queue are the numbers of expansions on the paths of what is
parked. At every moment the depth is the number of expansions on the path, all of which have taken
place, it keeps to the limit, and an alias is refused exactly where there are as many as the limit
allows. Every operation that ends goes on with the history. Whatever is run leaves the depth as it
was, so what an expansion has raised can be lowered again. So a chain of aliases, which with the
built-in commands always ends, runs to its last line if and only if it is no longer than the limit,
less the expansions that it comes from itself. -/
theorem depth_accounting (h : c.History s origins moments) :
    c.Accounted [] s origins ∧ (∀ m ∈ moments, c.AccountedAt m ∧ Founded moments m.path) ∧
      (∀ op outcome t, c.Returns op s outcome t → ∃ moments' origins',
        c.Course (.op op) [] s origins moments' outcome t origins' ∧
          c.History t origins' (moments ++ moments')) ∧
      (∀ op x outcome y, c.Returns op x outcome y → y.depth = x.depth) ∧
      (∀ statements x outcome y, c.Runs statements x outcome y → y.depth = x.depth) ∧
      (c.IsBuiltin → ∀ line, ∃ outcome t, c.Returns (.dispatch line) s outcome t) ∧
      ∀ path x origins n line last, c.Accounted path x origins → x.sequencer.isWaiting = false →
        x.aliases.Chain n line last → ∀ moments outcome y origins',
        c.Course (.op (.dispatch line)) path x origins moments outcome y origins' →
        ((∃ m ∈ moments, m.occasion = .starts (.dispatch last)) ↔
          path.length + n ≤ c.config.maxAliasDepth) ∧
        (c.config.maxAliasDepth < path.length + n →
          ∃ name, outcome = .error (.recursionLimit name c.config.maxAliasDepth)) := by
  obtain ⟨ha, hm⟩ := h.accounted
  refine ⟨ha, fun m hmem => ⟨hm m hmem, h.founded.1 m hmem⟩, fun _ _ _ hr => h.exists_after hr,
    fun _ _ _ _ hr => hr.depth_eq, fun _ _ _ _ hr => hr.depth_eq, ?_, ?_⟩
  · intro hc line
    obtain ⟨outcome, t, hr, -⟩ := hc.described line s
    exact ⟨outcome, t, hr⟩
  · intro path x origins n line last hx hw hchain moments outcome y origins' hcourse
    exact hcourse.reaches_iff hchain hw hx

/-- With a limit of two, a chain of three aliases does not reach its end; a statement that an alias
leaves parked has that alias on its path. -/
theorem depth_accounting_chain :
    let c := exact { Config.standard with maxAliasDepth := 2 }
    let s := Session.remembering c.config ((((TextMap.empty.insert "a" "b").insert "b" "c").insert
      "c" "print x").insert "later" "delay 1; print y")
    c.History s [] [] ∧ s.aliases.Chain 3 "a" "print x" ∧
      (∃ name t moments origins,
        c.Returns (.dispatch "a") s (.error (.recursionLimit name 2)) t ∧
        c.Course (.op (.dispatch "a")) [] s [] moments (.error (.recursionLimit name 2)) t origins ∧
        ∀ m ∈ moments, m.occasion ≠ .starts (.dispatch "print x")) ∧
      ∃ t origin moments, c.Returns (.execute "later") s (.ok ()) t ∧
        c.History t [origin] moments ∧ t.sequencer.parked = [⟨["print y"], 1⟩] ∧
        origin.length = 1 := by
  intro c s
  have hs : c.History s [] [] := .start (Session.start_remembering rfl _)
  have first : s.aliases.expand (Text.trim "a") = some ["b"] := by decide +kernel
  have second : s.aliases.expand (Text.trim "b") = some ["c"] := by decide +kernel
  have third : s.aliases.expand (Text.trim "c") = some ["print x"] := by decide +kernel
  have hlast : s.aliases.expand (Text.trim "print x") = none := by decide +kernel
  have hchain : s.aliases.Chain 3 "a" "print x" :=
    .next (by decide +kernel) first (.next (by decide +kernel) second
      (.next (by decide +kernel) third (.last hlast)))
  obtain ⟨ha, -, hafter, -, -, hends, hchains⟩ := depth_accounting hs
  obtain ⟨outcome, t, hr⟩ := hends (isBuiltin_exact _) "a"
  obtain ⟨moments, origins, hcourse, -⟩ := hafter _ _ _ hr
  obtain ⟨hiff, hstops⟩ := hchains [] s [] 3 "a" "print x" ha rfl hchain _ _ _ _ hcourse
  have hlimit : c.config.maxAliasDepth = 2 := rfl
  rw [hlimit] at hiff hstops
  obtain ⟨name, rfl⟩ := hstops (by decide)
  refine ⟨hs, hchain, ⟨name, t, moments, origins, hr, hcourse, fun m hm hlast => ?_⟩, ?_⟩
  · exact absurd (hiff.mp ⟨m, hm, hlast⟩) (by decide)
  · have h : ∃ r ∈ c.perform 9 (.execute "later") s, r.1 = .ok () ∧
        r.2.sequencer.parked = [⟨["print y"], 1⟩] := by
      decide +kernel
    obtain ⟨⟨_, u⟩, hu, rfl, hp⟩ := h
    obtain ⟨moments', origins', -, hlater⟩ := hafter (.execute "later") (.ok ()) u ⟨9, hu⟩
    -- one sequence is parked, at depth one, and so is its path
    have hdepths := (depth_accounting hlater).1.depths_eq
    rw [hp] at hdepths
    obtain ⟨origin, rest, rfl, hone, hrest⟩ := List.map_eq_cons_iff.mp hdepths.symm
    obtain rfl := List.map_eq_nil_iff.mp hrest
    exact ⟨u, origin, _, ⟨9, hu⟩, hlater, hp, hone⟩

end Console

end CommandConsole

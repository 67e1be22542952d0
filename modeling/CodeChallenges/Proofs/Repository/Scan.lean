import CodeChallenges.Proofs.Names
import CodeChallenges.Proofs.Outcome
import CodeChallenges.Proofs.Repository.Snapshot
import CodeChallenges.Proofs.Sorting
import CodeChallenges.Repository.Scan
/-!
# Two ways to find files

Candidates come from git or from a walk.  Either way they are in strictly ascending order, and so
are the files that are chosen of them (`Scanner.run_eq_ok`).

In a plain repository of which git lists all files, the walk chooses what git chooses, except for
files below a directory that the exclude globs match (`Scanner.found_walk_eq_filter`): the walk does
not enter such a directory.
-/

namespace CodeChallenges.Repository

open CodeChallenges.Path (join segments)

namespace Scanner

/-! ## Choosing -/

/-- What is chosen of one candidate. -/
def choose (sc : Scanner) (r : Registry) (path : String) : Option (String × Language) :=
  if sc.isExcluded path then none else (sc.wantedLanguage r path).map (path, ·)

theorem choose_eq_some {sc : Scanner} {r : Registry} {path : String} {f : String × Language}
    (h : sc.choose r path = some f) : f.1 = path := by
  unfold choose at h
  split at h
  · cases h
  · obtain ⟨l, -, rfl⟩ := Option.map_eq_some_iff.mp h
    rfl

theorem found_consider (sc : Scanner) (r : Registry) (p : Progress) (path : String) :
    (sc.consider r p path).found = (sc.choose r path).toList ++ p.found := by
  unfold consider choose
  split
  · rfl
  · cases sc.wantedLanguage r path with
    | none => rfl
    | some l => rfl

/-- Without a limit every candidate is considered. -/
theorem found_select (sc : Scanner) (r : Registry) (p : Progress) (paths : List String) :
    (sc.select r none p paths).found = (paths.filterMap (sc.choose r)).reverse ++ p.found := by
  induction paths generalizing p with
  | nil => rfl
  | cons path rest ih =>
      have hlimit : ((none : Option Nat) == some p.stats.yielded) = false := rfl
      rw [select, hlimit, if_neg Bool.false_ne_true, ih, found_consider]
      cases h : sc.choose r path with
      | none => rw [List.filterMap_cons_none h, Option.toList_none, List.nil_append]
      | some f =>
          rw [List.filterMap_cons_some h, List.reverse_cons, Option.toList_some, List.append_assoc]

/-- Every candidate that was seen is in one count. -/
structure Progress.Balanced (p : Progress) : Prop where
  seen_eq : p.stats.seen = p.stats.unsupported + p.stats.excluded + p.stats.yielded
  yielded_eq : p.stats.yielded = p.found.length

theorem Progress.Balanced.consider {p : Progress} (h : p.Balanced) (sc : Scanner) (r : Registry)
    (path : String) : (sc.consider r p path).Balanced := by
  have hseen := h.seen_eq
  have hyielded := h.yielded_eq
  unfold Scanner.consider
  split
  · constructor
    · dsimp only
      omega
    · exact hyielded
  · cases sc.wantedLanguage r path with
    | none =>
        constructor
        · dsimp only
          omega
        · exact hyielded
    | some l =>
        constructor
        · dsimp only
          omega
        · rw [List.length_cons, ← hyielded]

theorem Progress.Balanced.select {sc : Scanner} {r : Registry} {limit : Option Nat}
    {paths : List String} {p : Progress} (h : p.Balanced) :
    (sc.select r limit p paths).Balanced := by
  induction paths generalizing p with
  | nil => exact h
  | cons path rest ih =>
      rw [Scanner.select]
      split
      · exact h
      · exact ih (h.consider sc r path)

/-- Every candidate of a scan is unsupported, excluded or chosen. -/
theorem run_seen_eq {sc : Scanner} {r : Registry} {limit : Option Nat} {out : Outcome}
    (h : sc.run r limit = .ok out) :
    out.stats.seen = out.stats.unsupported + out.stats.excluded + out.found.length := by
  unfold run at h
  split at h
  · rw [← pure_eq_ok_iff.mp h]
    rfl
  · obtain ⟨⟨paths, messages⟩, -, h⟩ := bind_eq_ok_iff.mp h
    have hbalanced : (sc.select r limit {} paths).Balanced :=
      Progress.Balanced.select ⟨rfl, rfl⟩
    rw [← pure_eq_ok_iff.mp h, List.length_reverse, ← hbalanced.yielded_eq]
    exact hbalanced.seen_eq

/-- Files in strictly ascending order of their paths. -/
def Ascending (found : List (String × Language)) : Prop :=
  found.Pairwise fun f g => f.1 < g.1

theorem ascending_filterMap_choose {sc : Scanner} {r : Registry} {paths : List String}
    (h : paths.Pairwise (· < ·)) : Ascending (paths.filterMap (sc.choose r)) := by
  rw [Ascending, List.pairwise_filterMap]
  refine h.imp fun {a b} hab f hf g hg => ?_
  rw [choose_eq_some hf, choose_eq_some hg]
  exact hab

/-! ## Candidates -/

theorem listPaths_ascending {args : List String} {reply : Git.Reply} {listed : List String}
    (h : Git.listPaths args reply = .ok listed) : listed.Pairwise (· < ·) := by
  obtain ⟨text, -, rfl⟩ := map_eq_ok_iff.mp h
  exact sortedNames_ascending _

theorem walkCandidates_ascending (sc : Scanner) : sc.walkCandidates.Pairwise (· < ·) :=
  sortedNames_ascending _

/-- Candidates are in strictly ascending order, whichever way they are found. -/
theorem candidates_ascending {sc : Scanner} {paths : List String} {messages : List Log.Message}
    (h : sc.candidates = .ok (paths, messages)) : paths.Pairwise (· < ·) := by
  unfold candidates at h
  split at h
  · split at h
    · rename_i listed hlisted
      cases h
      obtain ⟨all, hall, hlisted⟩ := bind_eq_ok_iff.mp hlisted
      split at hlisted
      · cases hlisted
      · rw [← pure_eq_ok_iff.mp hlisted]
        exact (listPaths_ascending (mapError_eq_ok_iff.mp hall)).filter _
    · split at h
      · cases h
        exact sc.walkCandidates_ascending
      · cases h
    · cases h
  · cases h
    exact sc.walkCandidates_ascending

theorem mem_filePaths {encounters : List Encounter} {path : String} :
    path ∈ filePaths encounters ↔ ∃ names, path = join names ∧ .file names ∈ encounters := by
  rw [filePaths, mem_sortedNames, List.mem_map]
  constructor
  · rintro ⟨names, hnames, rfl⟩
    obtain ⟨encounter, hmem, h⟩ := List.mem_filterMap.mp hnames
    cases encounter with
    | file path =>
        cases h
        exact ⟨names, rfl, hmem⟩
    | visited path => cases h
  · rintro ⟨names, rfl, hmem⟩
    exact ⟨names, List.mem_filterMap.mpr ⟨_, hmem, rfl⟩, rfl⟩

theorem isFile_of_mem_walkCandidates {sc : Scanner} {path : String}
    (h : path ∈ sc.walkCandidates) : sc.world.snapshot.isFile sc.root path = true := by
  obtain ⟨names, rfl, hmem⟩ := mem_filePaths.mp h
  exact isFile_of_mem_walk hmem

/-- Candidates lead to regular files, whichever way they are found. -/
theorem isFile_of_mem_candidates {sc : Scanner} {paths : List String}
    {messages : List Log.Message} (h : sc.candidates = .ok (paths, messages)) {path : String}
    (hpath : path ∈ paths) : sc.world.snapshot.isFile sc.root path = true := by
  unfold candidates at h
  split at h
  · split at h
    · rename_i listed hlisted
      cases h
      obtain ⟨all, -, hlisted⟩ := bind_eq_ok_iff.mp hlisted
      split at hlisted
      · cases hlisted
      · rw [← pure_eq_ok_iff.mp hlisted] at hpath
        exact (List.mem_filter.mp hpath).2
    · split at h
      · cases h
        exact isFile_of_mem_walkCandidates hpath
      · cases h
    · cases h
  · cases h
    exact isFile_of_mem_walkCandidates hpath

/-- A scan without a limit chooses of all candidates. -/
theorem run_eq_ok_iff {sc : Scanner} {r : Registry} {out : Outcome} :
    sc.run r none = .ok out ↔ ∃ paths messages, sc.candidates = .ok (paths, messages) ∧
      out = ⟨paths.filterMap (sc.choose r), (sc.select r none {} paths).stats, messages,
        if sc.usesGit then [Git.listingArgs Git.lsFilesArgs] else []⟩ := by
  have hlimit : ((none : Option Nat) == some 0) = false := rfl
  rw [run, hlimit, if_neg Bool.false_ne_true, bind_eq_ok_iff]
  have hfound : ∀ paths, (sc.select r none {} paths).found.reverse =
      paths.filterMap (sc.choose r) := by
    intro paths
    rw [found_select, List.append_nil, List.reverse_reverse]
  constructor
  · rintro ⟨⟨paths, messages⟩, hc, h⟩
    exact ⟨paths, messages, hc, by rw [← pure_eq_ok_iff.mp h, hfound]⟩
  · rintro ⟨paths, messages, hc, rfl⟩
    exact ⟨(paths, messages), hc, pure_eq_ok_iff.mpr (by rw [hfound])⟩

/-- The chosen files are in strictly ascending order. -/
theorem found_ascending {sc : Scanner} {r : Registry} {out : Outcome}
    (h : sc.run r none = .ok out) : Ascending out.found := by
  obtain ⟨paths, messages, hc, rfl⟩ := run_eq_ok_iff.mp h
  exact ascending_filterMap_choose (candidates_ascending hc)

/-- The chosen files can be read. -/
theorem isFile_of_mem_found {sc : Scanner} {r : Registry} {out : Outcome}
    (h : sc.run r none = .ok out) {f : String × Language} (hf : f ∈ out.found) :
    sc.world.snapshot.isFile sc.root f.1 = true := by
  obtain ⟨paths, messages, hc, rfl⟩ := run_eq_ok_iff.mp h
  obtain ⟨path, hpath, hchoose⟩ := List.mem_filterMap.mp hf
  rw [choose_eq_some hchoose]
  exact isFile_of_mem_candidates hc hpath

/-! ## Opening -/

/-- The choice whether git is asked. -/
def gitChoice (w : World) (place : Place) : Option Bool → Except OpenFault Bool
  | some choice => .ok choice
  | none => prefersGit w place

/-- An opened scanner is over the place of its root, on the options it was asked for and their globs,
and has read the ignore file there. -/
theorem open_eq_ok_iff {w : World} {root : String} {o : Options} {useGit : Option Bool}
    {sc : Scanner} {warnings : List Log.Message} :
    Scanner.open w root o useGit = .ok (sc, warnings) ↔
      openRoot w root = .ok sc.root ∧ excludeGlobs o = .ok sc.excludes ∧
      compileGlobs o.includes = .ok sc.includes ∧
      readIgnoreFile w.snapshot sc.root = .ok (sc.ignored, warnings) ∧
      gitChoice w sc.root useGit = .ok sc.usesGit ∧ sc.world = w ∧ sc.options = o := by
  constructor
  · intro h
    obtain ⟨place, hplace, h⟩ := bind_eq_ok_iff.mp h
    obtain ⟨excludes, hexcludes, h⟩ := bind_eq_ok_iff.mp h
    obtain ⟨includes, hincludes, h⟩ := bind_eq_ok_iff.mp h
    obtain ⟨⟨ignored, _⟩, hignored, h⟩ := bind_eq_ok_iff.mp h
    cases useGit
    all_goals
      obtain ⟨usesGit, husesGit, h⟩ := bind_eq_ok_iff.mp h
      cases pure_eq_ok_iff.mp h
      exact ⟨hplace, hexcludes, hincludes, hignored, husesGit, rfl, rfl⟩
  · rintro ⟨hplace, hexcludes, hincludes, hignored, husesGit, rfl, rfl⟩
    refine bind_eq_ok_iff.mpr ⟨_, hplace, ?_⟩
    refine bind_eq_ok_iff.mpr ⟨_, hexcludes, ?_⟩
    refine bind_eq_ok_iff.mpr ⟨_, hincludes, ?_⟩
    refine bind_eq_ok_iff.mpr ⟨_, hignored, ?_⟩
    cases useGit
    all_goals exact bind_eq_ok_iff.mpr ⟨_, husesGit, rfl⟩

theorem open_eq_ok {w : World} {root : String} {o : Options} {useGit : Option Bool} {sc : Scanner}
    {warnings : List Log.Message} (h : Scanner.open w root o useGit = .ok (sc, warnings)) :
    openRoot w root = .ok sc.root ∧ sc.world = w ∧ sc.options = o ∧
      readIgnoreFile w.snapshot sc.root = .ok (sc.ignored, warnings) := by
  obtain ⟨hplace, -, -, hignored, -, hworld, hoptions⟩ := open_eq_ok_iff.mp h
  exact ⟨hplace, hworld, hoptions, hignored⟩

/-! ## The number of workers -/

/-- The same scanner for another number of workers. -/
def withWorkers (sc : Scanner) (workers : Option Int) : Scanner :=
  { sc with options := { sc.options with workers } }

/-- Scanners that think alike of each candidate choose alike. -/
theorem select_congr {sc sc' : Scanner} {r : Registry}
    (hexcluded : ∀ path, sc.isExcluded path = sc'.isExcluded path)
    (hwanted : ∀ path, sc.wantedLanguage r path = sc'.wantedLanguage r path)
    (limit : Option Nat) (p : Progress) (paths : List String) :
    sc.select r limit p paths = sc'.select r limit p paths := by
  have hconsider : ∀ p path, sc.consider r p path = sc'.consider r p path := by
    intro p path
    rw [consider, consider, hexcluded, hwanted]
  induction paths generalizing p with
  | nil => rfl
  | cons path paths ih => rw [select, select, hconsider, ih]

/-- Scanners that see the same candidates and think alike of each choose the same files. -/
theorem run_congr {sc sc' : Scanner} {r : Registry} (hcandidates : sc.candidates = sc'.candidates)
    (hexcluded : ∀ path, sc.isExcluded path = sc'.isExcluded path)
    (hwanted : ∀ path, sc.wantedLanguage r path = sc'.wantedLanguage r path)
    (husesGit : sc.usesGit = sc'.usesGit) (limit : Option Nat) :
    sc.run r limit = sc'.run r limit := by
  simp only [run, hcandidates, select_congr hexcluded hwanted, husesGit]

/-- The files that are chosen do not depend on the number of workers. -/
theorem run_withWorkers (sc : Scanner) (workers : Option Int) (r : Registry)
    (limit : Option Nat) : (sc.withWorkers workers).run r limit = sc.run r limit := by
  have hcandidates : (sc.withWorkers workers).candidates = sc.candidates := rfl
  have hexcluded : ∀ path, (sc.withWorkers workers).isExcluded path = sc.isExcluded path :=
    fun path => rfl
  have hwanted : ∀ path, (sc.withWorkers workers).wantedLanguage r path =
      sc.wantedLanguage r path := fun path => rfl
  exact run_congr hcandidates hexcluded hwanted rfl limit

/-- Opening a root does not depend on the number of workers. -/
theorem open_withWorkers {w : World} {root : String} {o : Options} {useGit : Option Bool}
    {sc : Scanner} {warnings : List Log.Message}
    (h : Scanner.open w root o useGit = .ok (sc, warnings)) (workers : Option Int) :
    Scanner.open w root { o with workers } useGit = .ok (sc.withWorkers workers, warnings) := by
  obtain ⟨hplace, hexcludes, hincludes, hignored, husesGit, hworld, rfl⟩ := open_eq_ok_iff.mp h
  exact open_eq_ok_iff.mpr ⟨hplace, hexcludes, hincludes, hignored, husesGit, hworld, rfl⟩

/-! ## The walk beside git -/

/-- The same scanner with another choice whether git is asked. -/
def asking (sc : Scanner) (git : Bool) : Scanner :=
  { sc with usesGit := git }

/-- The choice whether git is asked is the only difference that it makes to an opened scanner. -/
theorem open_asking {w : World} {root : String} {o : Options} {useGit : Option Bool} {sc : Scanner}
    {warnings : List Log.Message} (h : Scanner.open w root o useGit = .ok (sc, warnings))
    (git : Bool) : Scanner.open w root o (some git) = .ok (sc.asking git, warnings) := by
  obtain ⟨hplace, hexcludes, hincludes, hignored, -, hworld, hoptions⟩ := open_eq_ok_iff.mp h
  exact open_eq_ok_iff.mpr ⟨hplace, hexcludes, hincludes, hignored, rfl, hworld, hoptions⟩

/-- No directory but the mark of the work tree itself has a name that the walk never enters. -/
def OneMark (sc : Scanner) : Prop :=
  ∀ path name, name ∈ neverEntered →
    sc.world.snapshot.entryAt (sc.root ++ (path ++ [name])) = some .directory →
    path ++ [name] = [workTreeMark]

theorem oneMark_of_entries {sc : Scanner}
    (h : ∀ item ∈ sc.world.snapshot.entries, item.2 = .directory →
      item.1.getLast?.getD "" ∈ neverEntered → item.1 = sc.root ++ [workTreeMark]) :
    sc.OneMark := by
  intro path name hname hdir
  have hempty : (sc.root ++ (path ++ [name])).isEmpty = false := by simp
  rw [Snapshot.entryAt, hempty, if_neg Bool.false_ne_true] at hdir
  have hlast : (sc.root ++ (path ++ [name])).getLast?.getD "" = name := by
    rw [← List.append_assoc, List.getLast?_concat, Option.getD_some]
  refine List.append_cancel_left (h _ (Snapshot.mem_of_lookup hdir) rfl ?_)
  rw [hlast]
  exact hname

/-- Git lists exactly the regular files of the repository that do not belong to git itself. -/
structure ListsFiles (sc : Scanner) (listed : List String) : Prop where
  listing : Git.listPaths Git.lsFilesArgs sc.world.git.listing = .ok listed
  mem_iff : ∀ path, path ∈ listed ↔ ∃ names content, path = join names ∧
    sc.world.snapshot.entryAt (sc.root ++ names) = some (.file content) ∧
    names.head? ≠ some workTreeMark

/-- Whether the exclude globs match a directory above a path, written with a slash at its end. -/
def isBelowMatch (sc : Scanner) (path : String) : Bool :=
  (segments path).dropLast.inits.any fun dir =>
    !dir.isEmpty && sc.matchesExcludes (join dir ++ "/")

section Plain

variable {sc : Scanner} {r : Registry}

theorem mem_walkCandidates (hp : sc.world.snapshot.Plain sc.root) {path : String} :
    path ∈ sc.walkCandidates ↔
      ∃ names, path = join names ∧ Reached sc.world.snapshot sc.root sc.enters [] names := by
  have hwalk : ∀ names, .file names ∈ sc.walkEncounters ↔
      Reached sc.world.snapshot sc.root sc.enters [] names := by
    intro names
    rw [walkEncounters, mem_walk_iff hp (fresh_root hp)]
    simp only [List.mem_singleton, exists_eq_left]
  simp only [walkCandidates, mem_filePaths, hwalk]

/-- The candidates from git are the paths that it lists, if all of them are there. -/
theorem gitCandidates_eq (hp : sc.world.snapshot.Plain sc.root) {listed : List String}
    (hlisted : Git.listPaths Git.lsFilesArgs sc.world.git.listing = .ok listed)
    (hfiles : ∀ path ∈ listed, ∃ names content, path = join names ∧
      sc.world.snapshot.entryAt (sc.root ++ names) = some (.file content)) :
    sc.gitCandidates = .ok listed := by
  have hshort : listed.find? (sc.world.snapshot.isTooLong sc.root) = none := by
    rw [List.find?_eq_none]
    intro path hpath
    obtain ⟨names, content, rfl, hfile⟩ := hfiles path hpath
    rw [hp.isTooLong_join (by rw [hfile]; rfl)]
    exact Bool.false_ne_true
  have hall : listed.filter (sc.world.snapshot.isFile sc.root) = listed := by
    rw [List.filter_eq_self]
    intro path hpath
    obtain ⟨names, content, rfl, hfile⟩ := hfiles path hpath
    exact hp.isFile_join hfile
  rw [gitCandidates, hlisted]
  simp only [Except.mapError, bind, Except.bind, hshort, hall]
  rfl

theorem prefix_dropLast_iff {q names : List String} (hne : names ≠ []) :
    q <+: names.dropLast ↔ q <+: names ∧ q ≠ names := by
  obtain ⟨init, last, rfl⟩ := (List.eq_nil_or_concat' names).resolve_left hne
  rw [List.dropLast_concat]
  constructor
  · intro h
    refine ⟨h.trans (List.prefix_append init [last]), fun heq => ?_⟩
    have hlen := h.length_le
    rw [heq, List.length_append, List.length_singleton] at hlen
    omega
  · rintro ⟨h, hqne⟩
    exact (List.prefix_concat_iff.mp h).resolve_left hqne

theorem isBelowMatch_join {names : List String} (hnames : ∀ name ∈ names, Path.IsName name) :
    sc.isBelowMatch (join names) = true ↔
      ∃ dir, dir ≠ [] ∧ dir <+: names.dropLast ∧ sc.matchesExcludes (join dir ++ "/") = true := by
  rw [isBelowMatch, Path.segments_join hnames, List.any_eq_true]
  simp only [List.mem_inits, Bool.and_eq_true, Bool.not_eq_true', List.isEmpty_eq_false_iff]
  constructor
  · rintro ⟨dir, hpre, hne, h⟩
    exact ⟨dir, hne, hpre, h⟩
  · rintro ⟨dir, hne, hpre, h⟩
    exact ⟨dir, hpre, hne, h⟩

theorem enters_iff {path : List String} :
    sc.enters path = true ↔
      path.getLast?.getD "" ∉ neverEntered ∧ sc.matchesExcludes (join path ++ "/") = false := by
  simp only [enters, Bool.and_eq_true, Bool.not_eq_true', List.contains_eq_mem,
    decide_eq_false_iff_not]

/-- The mark of a work tree is no file of any language. -/
theorem choose_workTreeMark (sc : Scanner) (r : Registry) : sc.choose r workTreeMark = none := by
  have hsuffix : (Path.suffix workTreeMark == "") = true := by decide
  have hlanguage : sc.wantedLanguage r workTreeMark = none := by
    rw [wantedLanguage, Registry.forPath, hsuffix, if_pos rfl, Option.filter_none]
  unfold choose
  rw [hlanguage, Option.map_none]
  split <;> rfl

/-- The walk comes to a chosen file exactly if the exclude globs match no directory above it. -/
theorem reached_iff_of_chosen (hp : sc.world.snapshot.Plain sc.root) (hmark : sc.OneMark)
    {names : List String} {content : List UInt8} {f : String × Language}
    (hfile : sc.world.snapshot.entryAt (sc.root ++ names) = some (.file content))
    (hchosen : sc.choose r (join names) = some f) :
    Reached sc.world.snapshot sc.root sc.enters [] names ↔
      names.head? ≠ some workTreeMark ∧ sc.isBelowMatch (join names) = false := by
  have hnames := hp.isName names (by rw [hfile]; rfl)
  have hne : names ≠ [] := by
    rintro rfl
    rw [List.append_nil, hp.root_directory] at hfile
    cases hfile
  constructor
  · rintro ⟨_, -, rfl, -, henter⟩
    refine ⟨fun hhead => ?_, ?_⟩
    · obtain ⟨rest, hrest⟩ := List.head?_eq_some_iff.mp hhead
      by_cases hnil : rest = []
      · rw [hrest, hnil] at hchosen
        have hnone : sc.choose r (join [workTreeMark]) = none := choose_workTreeMark sc r
        rw [hnone] at hchosen
        cases hchosen
      · have hentered := henter [workTreeMark] (List.cons_ne_nil _ _) ⟨rest, hrest.symm⟩
          (fun heq => hnil (List.cons.inj (heq.trans hrest)).2.symm)
        exact (enters_iff.mp hentered).1 (by decide)
    · rw [Bool.eq_false_iff]
      intro hmatch
      obtain ⟨dir, hdir, hpre, hmatch⟩ := (isBelowMatch_join hnames).mp hmatch
      obtain ⟨hpre, hdne⟩ := (prefix_dropLast_iff hne).mp hpre
      have hentered := henter dir hdir hpre hdne
      rw [List.nil_append] at hentered
      rw [(enters_iff.mp hentered).2] at hmatch
      cases hmatch
  · rintro ⟨hhead, hbelow⟩
    refine ⟨names, hne, rfl, ⟨content, hfile⟩, fun q hq hpre hqne => ?_⟩
    rw [List.nil_append, enters_iff]
    obtain ⟨more, hmore⟩ := hpre
    constructor
    · -- A directory of such a name would be the mark of the work tree.
      intro hnever
      obtain ⟨above, last, rfl⟩ := (List.eq_nil_or_concat' q).resolve_left hq
      rw [List.getLast?_concat, Option.getD_some] at hnever
      have hmorene : more ≠ [] := by
        rintro rfl
        exact hqne (by rw [← hmore, List.append_nil])
      have hdir := hp.directory_above hmorene (by rw [hmore, hfile]; rfl)
      have hmarked := hmark above last hnever hdir
      rw [← hmore, hmarked] at hhead
      exact hhead rfl
    · rw [Bool.eq_false_iff] at hbelow ⊢
      intro hmatch
      exact hbelow ((isBelowMatch_join hnames).mpr
        ⟨q, hq, (prefix_dropLast_iff hne).mpr ⟨⟨more, hmore⟩, hqne⟩, hmatch⟩)

/-- **The walk chooses what git chooses** but for files below a directory that the exclude globs
match. -/
theorem found_walk_eq_filter (hp : sc.world.snapshot.Plain sc.root) (hmark : sc.OneMark)
    {listed : List String} (hlists : sc.ListsFiles listed) :
    ∃ byGit byWalk, (sc.asking true).run r none = .ok byGit ∧
      (sc.asking false).run r none = .ok byWalk ∧
      byGit.found = listed.filterMap (sc.choose r) ∧
      byWalk.found = byGit.found.filter fun f => !sc.isBelowMatch f.1 := by
  obtain ⟨hlisted, hfiles⟩ := hlists
  have hgit : (sc.asking true).candidates = .ok (listed, []) := by
    have hall : ∀ path ∈ listed, ∃ names content, path = join names ∧
        sc.world.snapshot.entryAt (sc.root ++ names) = some (.file content) := by
      intro path hpath
      obtain ⟨names, content, hpath, hfile, -⟩ := (hfiles path).mp hpath
      exact ⟨names, content, hpath, hfile⟩
    have hcandidates : (sc.asking true).gitCandidates = .ok listed := by
      refine gitCandidates_eq ?_ hlisted ?_
      · exact hp
      · exact hall
    have hasking : (sc.asking true).usesGit = true := rfl
    rw [candidates, if_pos hasking, hcandidates]
  have hwalk : (sc.asking false).candidates = .ok (sc.asking false).walked :=
    if_neg Bool.false_ne_true
  refine ⟨_, _, run_eq_ok_iff.mpr ⟨_, _, hgit, rfl⟩, run_eq_ok_iff.mpr ⟨_, _, hwalk, rfl⟩, rfl, ?_⟩
  have hlistedAsc : Ascending (listed.filterMap (sc.choose r)) :=
    ascending_filterMap_choose (listPaths_ascending hlisted)
  have hwalkAsc : Ascending (sc.walkCandidates.filterMap (sc.choose r)) :=
    ascending_filterMap_choose sc.walkCandidates_ascending
  show sc.walkCandidates.filterMap (sc.choose r) =
    (listed.filterMap (sc.choose r)).filter fun f => !sc.isBelowMatch f.1
  refine eq_of_ascending Prod.fst hwalkAsc (hlistedAsc.filter _) fun f => ?_
  rw [List.mem_filter, List.mem_filterMap, List.mem_filterMap]
  constructor
  · rintro ⟨path, hpath, hchosen⟩
    obtain ⟨names, rfl, hreached⟩ := (mem_walkCandidates hp).mp hpath
    have ⟨_, _, _, ⟨content, hfile⟩, _⟩ := hreached
    obtain ⟨hhead, hbelow⟩ := (reached_iff_of_chosen hp hmark hfile hchosen).mp hreached
    rw [choose_eq_some hchosen, hbelow]
    exact ⟨⟨_, (hfiles _).mpr ⟨names, content, rfl, hfile, hhead⟩, hchosen⟩, rfl⟩
  · rintro ⟨⟨path, hpath, hchosen⟩, hbelow⟩
    obtain ⟨names, content, rfl, hfile, hhead⟩ := (hfiles path).mp hpath
    rw [choose_eq_some hchosen, Bool.not_eq_true'] at hbelow
    exact ⟨_, (mem_walkCandidates hp).mpr
      ⟨names, rfl, (reached_iff_of_chosen hp hmark hfile hchosen).mpr ⟨hhead, hbelow⟩⟩, hchosen⟩

end Plain

end Scanner

/-! ## Work trees -/

/-- The directory `/r` of a snapshot without links is a work tree, and has no ignore file. -/
structure Snapshot.WorkTree (s : Snapshot) : Prop where
  top_plain : s.Plain []
  plain : s.Plain ["r"]
  mark : s.entryAt ["r", workTreeMark] = some .directory
  no_ignore_file : s.entryAt ["r", ignoreFileName] = none

namespace Snapshot.WorkTree

variable {s : Snapshot}

theorem locate_root (h : s.WorkTree) : s.locate [] "/r" = .ok ["r"] := by
  have hstart : Snapshot.startOf [] "/r" = [] := by decide
  have hsegments : Path.segments "/r" = ["r"] := by decide
  rw [Snapshot.locate_eq_follow (by decide) (by decide), hstart, hsegments]
  have hsome : (s.entryAt ["r"]).isSome := by
    rw [h.plain.root_directory]
    rfl
  exact h.top_plain.follow_root hsome

/-- The root is where it is written. -/
theorem settledPlace (h : s.WorkTree) : settledPlace s [] "/r" = .ok ["r"] := by
  have htext : Place.text ["r"] = "/r" := by decide
  have hplace : s.resolvePath [] "/r" = ["r"] := by
    have hsegments : Path.segments "/r" = ["r"] := by decide
    have hstart : Snapshot.startOf [] "/r" = [] := by decide
    rw [Snapshot.resolvePath, hsegments, hstart, Snapshot.resolve]
    simp [h.plain.root_directory, Snapshot.resolve]
  simp only [Repository.settledPlace, hplace, htext, h.locate_root]

/-- There is no ignore file to be read. -/
theorem readIgnoreFile (h : s.WorkTree) : readIgnoreFile s ["r"] = .ok (none, []) := by
  have hmissing : s.locate ["r"] ignoreFileName = .error (.missing []) := by
    have hstart : Snapshot.startOf ["r"] ignoreFileName = ["r"] := by decide
    have hsegments : Path.segments ignoreFileName = [ignoreFileName] := by decide
    rw [Snapshot.locate_eq_follow (by decide) (by decide), hstart, hsegments]
    exact Snapshot.follow_of_missing h.plain.root_directory (by decide) (by decide) rfl
      h.no_ignore_file
  simp only [Repository.readIgnoreFile, checkEntry, Snapshot.isTooLong, Snapshot.read?, hmissing]
  rfl

end Snapshot.WorkTree

namespace Scanner

theorem openRoot_of_workTree {w : World} (h : w.snapshot.WorkTree)
    (hhere : w.workingDirectory = []) :
    openRoot w "/r" = .ok ["r"] := by
  have htext : Place.text ["r"] = "/r" := by decide
  have hnull : holdsNull "/r" = false := by decide
  refine bind_eq_ok_iff.mpr ⟨"/r", rfl, ?_⟩
  rw [hnull, if_neg Bool.false_ne_true]
  refine bind_eq_ok_iff.mpr ⟨["r"], by rw [hhere, h.settledPlace], ?_⟩
  simp only [htext, h.locate_root, h.plain.root_directory]
  rfl

/-- Git is asked about a work tree if it is installed. -/
theorem prefersGit_of_workTree {w : World} (h : w.snapshot.WorkTree) :
    prefersGit w ["r"] = .ok w.git.installed := by
  have hmark : w.snapshot.locate ["r"] workTreeMark = .ok ["r", workTreeMark] := by
    have hjoin : Path.join [workTreeMark] = workTreeMark := by decide
    have hsome : (w.snapshot.entryAt (["r"] ++ [workTreeMark])).isSome := by
      rw [List.singleton_append, h.mark]
      rfl
    rw [← hjoin]
    exact h.plain.locate_join hsome
  simp only [prefersGit, checkEntry, Snapshot.isTooLong, Snapshot.leadsSomewhere, hmark, h.mark]
  rfl

/-- A work tree is opened as it is, and git is asked if it is installed. -/
theorem open_of_workTree {w : World} {o : Options} {excludes includes : Option GlobList}
    (h : w.snapshot.WorkTree) (hhere : w.workingDirectory = [])
    (hexcludes : excludeGlobs o = .ok excludes)
    (hincludes : compileGlobs o.includes = .ok includes) :
    Scanner.open w "/r" o none =
      .ok (⟨w, ["r"], o, excludes, includes, none, w.git.installed⟩, []) :=
  open_eq_ok_iff.mpr ⟨openRoot_of_workTree h hhere, hexcludes, hincludes, h.readIgnoreFile,
    prefersGit_of_workTree h, rfl, rfl⟩

/-! ## A small repository -/

/-- A language with one extension. -/
def sampleLanguage : Language where
  name := "sample"
  displayName := "Sample"
  grammar := "sample"
  extensions := ["sample"]
  patterns := ["(def) @def"]
  captures := [("def", .function)]
  commentKinds := ["comment"]
  minLines := 1

/-- The registry that knows this language only. -/
def sampleRegistry : Registry :=
  ⟨[sampleLanguage]⟩

/-- A definition inside a definition, with a comment. -/
def sampleContent : List UInt8 :=
  Text.Utf8.encode "def f \x7b\n  def été 12 # hé\n\x7d\n".toList

/-- A work tree with one file two directories deep. -/
def sampleSnapshot : Snapshot :=
  ⟨[(["r"], .directory), (["r", ".git"], .directory), (["r", "a"], .directory),
    (["r", "a", "b"], .directory), (["r", "a", "b", "f.sample"], .file sampleContent)]⟩

/-- The world of this work tree, in which git lists the file. -/
def sampleWorld : World where
  snapshot := sampleSnapshot
  workingDirectory := []
  home := "/"
  git := ⟨true, .exited 0 "a/b/f.sample\x00" "", fun _ => .exited 0 "" ""⟩

/-- Options with the given exclude globs and no others. -/
def sampleOptions (excludes : List String) : Options :=
  { excludes, useDefaultExcludes := false }

/-- The scanner over this work tree with these options. -/
def sampleScanner (excludes : List String) : Scanner where
  world := sampleWorld
  root := ["r"]
  options := sampleOptions excludes
  excludes := (excludeGlobs (sampleOptions excludes)).toOption.getD none
  includes := none
  ignored := none
  usesGit := true

theorem sample_plain : sampleSnapshot.Plain ["r"] :=
  Snapshot.plain_of_isPlain (by decide)

theorem sample_oneMark (excludes : List String) : (sampleScanner excludes).OneMark :=
  oneMark_of_entries (by
    show ∀ item ∈ sampleSnapshot.entries, item.2 = .directory →
      item.1.getLast?.getD "" ∈ neverEntered → item.1 = ["r"] ++ [workTreeMark]
    decide)

theorem sample_file {names : List String} {content : List UInt8}
    (h : sampleSnapshot.entryAt (["r"] ++ names) = some (.file content)) :
    names = ["a", "b", "f.sample"] := by
  have hempty : (["r"] ++ names).isEmpty = false := rfl
  rw [Snapshot.entryAt, hempty, if_neg Bool.false_ne_true] at h
  have hmem := Snapshot.mem_of_lookup h
  simp only [sampleSnapshot, List.mem_cons, Prod.mk.injEq, reduceCtorEq, and_false, false_or,
    List.singleton_append, List.cons.injEq, List.not_mem_nil, or_false, true_and] at hmem
  exact hmem.1

theorem sample_listed :
    Git.listPaths Git.lsFilesArgs sampleWorld.git.listing = .ok ["a/b/f.sample"] :=
  eq_ok_of_toOption (by decide +kernel)

theorem sample_listsFiles (excludes : List String) :
    (sampleScanner excludes).ListsFiles ["a/b/f.sample"] := by
  refine ⟨sample_listed, fun path => ?_⟩
  rw [List.mem_singleton]
  constructor
  · rintro rfl
    have hfile : sampleSnapshot.entryAt (["r"] ++ ["a", "b", "f.sample"]) =
        some (.file sampleContent) := by decide
    exact ⟨["a", "b", "f.sample"], sampleContent, by decide, hfile, by decide⟩
  · rintro ⟨names, content, rfl, hfile, -⟩
    rw [sample_file hfile]
    decide

theorem sample_workTree : sampleSnapshot.WorkTree where
  top_plain := Snapshot.plain_of_isPlain (by decide)
  plain := sample_plain
  mark := by decide
  no_ignore_file := by decide

/-- The root of the small repository is where it is written. -/
theorem sample_settledPlace : settledPlace sampleSnapshot [] "/r" = .ok ["r"] :=
  sample_workTree.settledPlace

theorem sample_openRoot : openRoot sampleWorld "/r" = .ok ["r"] :=
  openRoot_of_workTree sample_workTree rfl

theorem sample_open :
    Scanner.open sampleWorld "/r" (sampleOptions []) none = .ok (sampleScanner [], []) :=
  open_of_workTree sample_workTree rfl rfl rfl

/-- Whatever is chosen with this registry is of its one language. -/
theorem filterMap_choose_sample (sc : Scanner) (paths : List String) :
    paths.filterMap (sc.choose sampleRegistry) =
      ((paths.filterMap (sc.choose sampleRegistry)).map Prod.fst).map (·, sampleLanguage) := by
  rw [List.map_map]
  refine (List.map_id _).symm.trans (List.map_congr_left fun f hf => ?_)
  obtain ⟨path, -, hchosen⟩ := List.mem_filterMap.mp hf
  unfold choose at hchosen
  split at hchosen
  · cases hchosen
  · obtain ⟨l, hwanted, rfl⟩ := Option.map_eq_some_iff.mp hchosen
    have hfound := (Option.filter_eq_some_iff.mp hwanted).1
    unfold Registry.forPath at hfound
    dsimp only at hfound
    split at hfound
    · cases hfound
    · rw [Registry.byExtension, Registry.findLast] at hfound
      rw [List.mem_singleton.mp (List.mem_of_find?_eq_some hfound)]
      rfl

/-- The one file of the small repository is chosen. -/
theorem sample_run : ∃ scan, (sampleScanner []).run sampleRegistry none = .ok scan ∧
    scan.found = [("a/b/f.sample", sampleLanguage)] := by
  have hcandidates : (sampleScanner []).candidates = .ok (["a/b/f.sample"], []) := by
    have hgit : (sampleScanner []).gitCandidates = .ok ["a/b/f.sample"] := by
      refine gitCandidates_eq sample_plain sample_listed fun path hpath => ?_
      refine ⟨["a", "b", "f.sample"], sampleContent, ?_, by decide⟩
      rw [List.mem_singleton.mp hpath]
      decide
    have husesGit : (sampleScanner []).usesGit = true := rfl
    rw [candidates, if_pos husesGit, hgit]
  have hpaths : (["a/b/f.sample"].filterMap ((sampleScanner []).choose sampleRegistry)).map
      Prod.fst = ["a/b/f.sample"] := by decide +kernel
  refine ⟨_, run_eq_ok_iff.mpr ⟨_, _, hcandidates, rfl⟩, ?_⟩
  show ["a/b/f.sample"].filterMap ((sampleScanner []).choose sampleRegistry) = _
  rw [filterMap_choose_sample, hpaths, List.map_singleton]

/-! ## A mixed repository -/

/-- A work tree with files of all kinds in its root, of which the notes can hold anything. -/
def mixedSnapshot (notes : List UInt8) : Snapshot :=
  ⟨[(["r"], .directory), (["r", ".git"], .directory),
    (["r", "a.sample"], .file sampleContent), (["r", "b.sample"], .file [0]),
    (["r", "c.sample"], .file sampleContent), (["r", "d.sample"], .file sampleContent),
    (["r", "notes.txt"], .file notes), (["r", "x.sample"], .file sampleContent)]⟩

/-- The paths of its files. -/
def mixedPaths : List String :=
  ["a.sample", "b.sample", "c.sample", "d.sample", "notes.txt", "x.sample"]

/-- The world of this work tree, in which git lists the files if it is installed. -/
def mixedWorld (installed : Bool) (notes : List UInt8) : World where
  snapshot := mixedSnapshot notes
  workingDirectory := []
  home := "/"
  git := {
    installed
    listing :=
      .exited 0 "a.sample\x00b.sample\x00c.sample\x00d.sample\x00notes.txt\x00x.sample\x00" ""
    binaryMark := fun _ => .exited 0 "" "" }

/-- The scanner over this work tree, with a glob that excludes the last file. -/
def mixedScanner (installed : Bool) (notes : List UInt8) : Scanner where
  world := mixedWorld installed notes
  root := ["r"]
  options := sampleOptions ["x.*"]
  excludes := (excludeGlobs (sampleOptions ["x.*"])).toOption.getD none
  includes := none
  ignored := none
  usesGit := installed

/-- The files that are chosen. -/
def mixedFound : List (String × Language) :=
  ["a.sample", "b.sample", "c.sample", "d.sample"].map (·, sampleLanguage)

theorem mixed_workTree (notes : List UInt8) : (mixedSnapshot notes).WorkTree where
  top_plain := Snapshot.plain_of_isPlain rfl
  plain := Snapshot.plain_of_isPlain rfl
  mark := rfl
  no_ignore_file := rfl

theorem mixed_open (installed : Bool) (notes : List UInt8) :
    Scanner.open (mixedWorld installed notes) "/r" (sampleOptions ["x.*"]) none =
      .ok (mixedScanner installed notes, []) :=
  open_of_workTree (mixed_workTree notes) rfl (eq_ok_of_isSome (by decide +kernel) none) rfl

theorem mixed_oneMark (installed : Bool) (notes : List UInt8) :
    (mixedScanner installed notes).OneMark := by
  refine oneMark_of_entries fun item hitem hdir hname => ?_
  simp only [mixedScanner, mixedWorld, mixedSnapshot, List.mem_cons, List.not_mem_nil,
    or_false] at hitem
  rcases hitem with rfl | rfl | rfl | rfl | rfl | rfl | rfl | rfl
  · exact absurd hname (by decide)
  · rfl
  all_goals cases hdir

/-- Git lists the files in their order. -/
theorem mixed_listed :
    Git.listPaths Git.lsFilesArgs (mixedWorld true []).git.listing = .ok mixedPaths := by
  refine congrArg Except.ok (?_ : Git.pathsOf _ = _)
  -- Sorting does not reduce; what sorts by evaluation takes its place.
  rw [Git.pathsOf, sortedNames, mergeSort_eq_computedSort]
  decide +kernel

theorem mixed_file {notes : List UInt8} {names : List String} {content : List UInt8}
    (h : (mixedSnapshot notes).entryAt (["r"] ++ names) = some (.file content)) :
    join names ∈ mixedPaths := by
  have hempty : (["r"] ++ names).isEmpty = false := rfl
  rw [Snapshot.entryAt, hempty, if_neg Bool.false_ne_true] at h
  have hmem := Snapshot.mem_of_lookup h
  simp only [mixedSnapshot, List.mem_cons, Prod.mk.injEq, reduceCtorEq, and_false, false_or,
    List.singleton_append, List.cons.injEq, List.not_mem_nil, or_false, true_and] at hmem
  rcases hmem with ⟨rfl, -⟩ | ⟨rfl, -⟩ | ⟨rfl, -⟩ | ⟨rfl, -⟩ | ⟨rfl, -⟩ | ⟨rfl, -⟩
  all_goals decide

theorem mixed_listsFiles (installed : Bool) (notes : List UInt8) :
    (mixedScanner installed notes).ListsFiles mixedPaths := by
  refine ⟨mixed_listed, fun path => ?_⟩
  constructor
  · intro h
    simp only [mixedPaths, List.mem_cons, List.not_mem_nil, or_false] at h
    rcases h with rfl | rfl | rfl | rfl | rfl | rfl
    all_goals exact ⟨[_], _, rfl, rfl, by decide⟩
  · rintro ⟨names, content, rfl, hfile, -⟩
    exact mixed_file hfile

/-- Of its files those with the extension are chosen, but for the excluded one. -/
theorem mixed_chosen (installed : Bool) (notes : List UInt8) :
    mixedPaths.filterMap ((mixedScanner installed notes).choose sampleRegistry) = mixedFound := by
  have hpaths : (mixedPaths.filterMap ((mixedScanner true []).choose sampleRegistry)).map
      Prod.fst = ["a.sample", "b.sample", "c.sample", "d.sample"] := by decide +kernel
  show mixedPaths.filterMap ((mixedScanner true []).choose sampleRegistry) = mixedFound
  rw [filterMap_choose_sample, hpaths]
  rfl

/-- With git four files are chosen; one is excluded and one is of no language. -/
theorem mixed_run : ∃ scan, (mixedScanner true []).run sampleRegistry none = .ok scan ∧
    scan.found = mixedFound ∧ scan.stats = ⟨6, 1, 1, 4⟩ := by
  have hcandidates : (mixedScanner true []).candidates = .ok (mixedPaths, []) := by
    have hgit : (mixedScanner true []).gitCandidates = .ok mixedPaths := by
      refine gitCandidates_eq (mixed_workTree []).plain mixed_listed fun path hpath => ?_
      obtain ⟨names, content, hjoin, hfile, -⟩ :=
        ((mixed_listsFiles true []).mem_iff path).mp hpath
      exact ⟨names, content, hjoin, hfile⟩
    have husesGit : (mixedScanner true []).usesGit = true := rfl
    rw [candidates, if_pos husesGit, hgit]
  refine ⟨_, run_eq_ok_iff.mpr ⟨_, _, hcandidates, rfl⟩, mixed_chosen true [], ?_⟩
  show ((mixedScanner true []).select sampleRegistry none {} mixedPaths).stats = ⟨6, 1, 1, 4⟩
  decide +kernel

/-- The walk chooses the same files, whatever the notes hold. -/
theorem mixed_walk (notes : List UInt8) :
    ∃ scan, (mixedScanner false notes).run sampleRegistry none = .ok scan ∧
      scan.found = mixedFound := by
  obtain ⟨byGit, byWalk, -, hwalk, hfound, hfilter⟩ := found_walk_eq_filter
    (r := sampleRegistry) (mixed_workTree notes).plain
    (mixed_oneMark false notes) (mixed_listsFiles false notes)
  refine ⟨byWalk, hwalk, ?_⟩
  rw [hfilter, hfound, mixed_chosen, List.filter_eq_self]
  have hbelow : ∀ f ∈ mixedFound, (!(mixedScanner false []).isBelowMatch f.1) = true := by
    decide +kernel
  exact hbelow

end Scanner

end CodeChallenges.Repository

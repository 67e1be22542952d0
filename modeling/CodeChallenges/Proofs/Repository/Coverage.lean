import CodeChallenges.Proofs.Repository.Links
import CodeChallenges.Proofs.Repository.Scan
import CodeChallenges.Proofs.Repository.Walk
/-!
# What the walk covers

Links make a graph of the directories, with circles and with ways out of the root.  The walk lists
each directory under at most one path, whatever the exclude globs are.  Without exclude globs it
lists every directory that is reached from the root and all regular files in it, unless a look-up on
the way is refused (`walk_lists_each_directory_once`).  Such a refusal can lose a file: a path goes
through a limited number of links, and the path under which a directory is listed may use them up
while a shorter one, which comes later, is given up (`entry_lost_behind_links`).
-/

namespace CodeChallenges.Repository.Scanner

open CodeChallenges.Path (IsName join)

/-! ## The directories that a scanner lists -/

/-- The rounds of the walk of a scanner. -/
def rounds (sc : Scanner) : List Visit :=
  visits sc.world.snapshot sc.root sc.enters sc.world.snapshot.directories [⟨[], sc.root⟩]

/-- The directories that the walk of a scanner lists. -/
def listed (sc : Scanner) : List Pending :=
  listing sc.world.snapshot sc.root sc.enters sc.world.snapshot.directories [⟨[], sc.root⟩]

/-- The names on the way to the directory of a file. -/
def directoryNames (file : String) : List String :=
  (Path.segments file).dropLast

/-- A directory is reached from the root: it is the root, or the entry of a reached directory leads
to it, which has none of the names that are never entered, and which is not refused under the path
at which the walk lists that directory. -/
inductive Reached (sc : Scanner) : Place → Prop
  | root : Reached sc sc.root
  | step {place target : Place} {name : String} :
      Reached sc place → name ∈ sc.world.snapshot.namesIn place → name ∉ neverEntered →
      sc.world.snapshot.Leads place name target .directory →
      (∀ path, ⟨path, place⟩ ∈ sc.listed →
        ¬ sc.world.snapshot.Refuses sc.root (path ++ [name])) →
      Reached sc target

variable {sc : Scanner}

theorem arrived_of_mem_listed (hs : sc.world.snapshot.Proper)
    (hroot : sc.world.snapshot.entryAt sc.root = some .directory) :
    ∀ d ∈ sc.listed, Arrived sc.world.snapshot sc.root d := by
  refine forall_mem_listing (fun d hd e he => hd.entered hs he) ?_
  refine List.forall_mem_singleton.mpr ⟨List.forall_mem_nil _, ?_, hroot⟩
  rw [Snapshot.follow]

theorem Reached.directory (hroot : sc.world.snapshot.entryAt sc.root = some .directory)
    {place : Place} (h : sc.Reached place) :
    sc.world.snapshot.entryAt place = some .directory := by
  cases h with
  | root => exact hroot
  | step _ _ _ hleads _ => exact hleads.2

/-- A directory is listed under one path. -/
theorem eq_of_mem_listed (hs : sc.world.snapshot.Proper) {d d' : Pending} (hd : d ∈ sc.listed)
    (hd' : d' ∈ sc.listed) (h : d.place = d'.place) : d = d' :=
  List.inj_on_of_nodup_map (nodup_places_listing hs.nodup_directories _) hd hd' h

/-- A directory that is reached is listed, if there are no exclude globs. -/
theorem Reached.exists_listed (hs : sc.world.snapshot.Proper)
    (hroot : sc.world.snapshot.entryAt sc.root = some .directory)
    (hexcludes : ∀ path, sc.matchesExcludes path = false) {place : Place} (h : sc.Reached place) :
    ∃ d ∈ sc.listed, d.place = place := by
  induction h with
  | root =>
      exact exists_listing_of_pending List.mem_cons_self (Snapshot.mem_directories hroot)
  | @step place target name _ hname hnever hleads hrefused ih =>
      obtain ⟨d, hd, rfl⟩ := ih
      -- The path under which it is listed may be another one than that by which it was reached.
      have harrived := arrived_of_mem_listed hs hroot d hd
      have hfind := harrived.find_of_leads (hs.isName_of_mem hname) hleads (hrefused d.path hd)
      have henters : sc.enters (d.path ++ [name]) = true := by
        have hlast : (d.path ++ [name]).getLast?.getD "" = name := by
          rw [List.getLast?_concat, Option.getD_some]
        rw [enters, hlast, hexcludes, Bool.not_false, Bool.and_true, Bool.not_eq_true',
          ← Bool.not_eq_true, List.contains_iff_mem]
        exact hnever
      exact exists_listing_of_entered hd
        (mem_entered_iff.mpr ⟨name, hname, rfl, hfind, henters⟩ :
          (⟨d.path ++ [name], target⟩ : Pending) ∈ _)
        (Snapshot.mem_directories hleads.2)

/-! ## The files that a scanner finds -/

/-- The files that the walk comes across are those of the directories that it lists. -/
theorem filterMap_file_walkEncounters (sc : Scanner) :
    sc.walkEncounters.filterMap Encounter.file? = sc.listed.flatMap fun d =>
      (sc.world.snapshot.filesIn sc.root d.path d.place).map fun name => d.path ++ [name] :=
  files_walk _ _ _ _ _

theorem mem_walkCandidates_iff {file : String} :
    file ∈ sc.walkCandidates ↔ ∃ d ∈ sc.listed, ∃ name ∈ sc.world.snapshot.filesIn sc.root d.path
      d.place, file = join (d.path ++ [name]) := by
  rw [walkCandidates, filePaths, mem_sortedNames, filterMap_file_walkEncounters, List.mem_map]
  constructor
  · rintro ⟨names, hnames, rfl⟩
    obtain ⟨d, hd, hnames⟩ := List.mem_flatMap.mp hnames
    obtain ⟨name, hname, rfl⟩ := List.mem_map.mp hnames
    exact ⟨d, hd, name, hname, rfl⟩
  · rintro ⟨d, hd, name, hname, rfl⟩
    exact ⟨d.path ++ [name], List.mem_flatMap.mpr ⟨d, hd, List.mem_map_of_mem hname⟩, rfl⟩

/-- The names on the way to a file are those of the directory that was listed. -/
theorem segments_of_mem_filesIn (hs : sc.world.snapshot.Proper)
    (hroot : sc.world.snapshot.entryAt sc.root = some .directory) {d : Pending}
    (hd : d ∈ sc.listed) {name : String}
    (hname : name ∈ sc.world.snapshot.filesIn sc.root d.path d.place) :
    Path.segments (join (d.path ++ [name])) = d.path ++ [name] := by
  have harrived := arrived_of_mem_listed hs hroot d hd
  refine Path.segments_join (List.forall_mem_append.mpr ⟨harrived.isName, ?_⟩)
  exact List.forall_mem_singleton.mpr (hs.isName_of_mem (Snapshot.mem_filesIn_iff.mp hname).1)

/-- **No file is come across twice** under one path. -/
theorem nodup_files (hs : sc.world.snapshot.Proper)
    (hroot : sc.world.snapshot.entryAt sc.root = some .directory) :
    ((sc.walkEncounters.filterMap Encounter.file?).map join).Nodup := by
  have hplaces : (sc.listed.map (·.place)).Nodup := nodup_places_listing hs.nodup_directories _
  have harrived := arrived_of_mem_listed hs hroot
  rw [filterMap_file_walkEncounters]
  refine List.Nodup.map_on ?_ (List.nodup_flatMap.mpr ⟨?_, ?_⟩)
  · -- The names of a file can be read back from its path.
    have hsegments : ∀ names ∈ sc.listed.flatMap (fun d =>
        (sc.world.snapshot.filesIn sc.root d.path d.place).map fun name => d.path ++ [name]),
        Path.segments (join names) = names := by
      intro names hnames
      obtain ⟨d, hd, hnames⟩ := List.mem_flatMap.mp hnames
      obtain ⟨name, hname, rfl⟩ := List.mem_map.mp hnames
      exact segments_of_mem_filesIn hs hroot hd hname
    intro names hnames names' hnames' heq
    rw [← hsegments names hnames, ← hsegments names' hnames', heq]
  · intro d _
    refine List.Nodup.map (fun name name' heq => ?_)
      ((Snapshot.nodup_namesIn_of_nodup hs.nodup d.place).filter _)
    exact List.singleton_inj.mp (List.append_cancel_left heq)
  · -- Different places have different paths.
    refine (List.pairwise_map.mp hplaces).imp_of_mem fun {d e} hd he hne => ?_
    intro names hd' he'
    obtain ⟨name, -, rfl⟩ := List.mem_map.mp hd'
    obtain ⟨name', -, heq⟩ := List.mem_map.mp he'
    have hpath : e.path = d.path := (List.append_inj' heq rfl).1
    have hplace := (harrived e he).follow_eq
    rw [hpath, (harrived d hd).follow_eq] at hplace
    exact hne (Except.ok.inj hplace)

/-! ## Coverage -/

/-- The directory to which the names on the way to a file lead. -/
def LiesIn (sc : Scanner) (file : String) (place : Place) : Prop :=
  sc.world.snapshot.follow .look Snapshot.maxLinks sc.root (directoryNames file) = .ok place

/-- A file that is found was found in a directory that is listed. -/
theorem exists_listed_of_mem_walkCandidates (hs : sc.world.snapshot.Proper)
    (hroot : sc.world.snapshot.entryAt sc.root = some .directory) {file : String}
    (h : file ∈ sc.walkCandidates) :
    ∃ d ∈ sc.listed, ∃ name ∈ sc.world.snapshot.namesIn d.place,
      directoryNames file = d.path ∧ file = join (d.path ++ [name]) ∧ sc.LiesIn file d.place ∧
      ∃ target content, sc.world.snapshot.Leads d.place name target (.file content) := by
  obtain ⟨d, hd, name, hname, rfl⟩ := mem_walkCandidates_iff.mp h
  have harrived := arrived_of_mem_listed hs hroot d hd
  obtain ⟨hmem, target, content, hfind⟩ := Snapshot.mem_filesIn_iff.mp hname
  have hnames : directoryNames (join (d.path ++ [name])) = d.path := by
    rw [directoryNames, segments_of_mem_filesIn hs hroot hd hname, List.dropLast_concat]
  refine ⟨d, hd, name, hmem, hnames, rfl, ?_, target, content,
    harrived.leads_of_find (hs.isName_of_mem hmem) hfind⟩
  rw [LiesIn, hnames]
  exact harrived.follow_eq

/-- A file in a listed directory is found, unless its look-up is refused there. -/
theorem mem_walkCandidates_of_leads (hs : sc.world.snapshot.Proper)
    (hroot : sc.world.snapshot.entryAt sc.root = some .directory) {d : Pending}
    (hd : d ∈ sc.listed) {name : String} (hname : name ∈ sc.world.snapshot.namesIn d.place)
    {target : Place} {content : List UInt8}
    (hleads : sc.world.snapshot.Leads d.place name target (.file content))
    (hrefused : ¬ sc.world.snapshot.Refuses sc.root (d.path ++ [name])) :
    join (d.path ++ [name]) ∈ sc.walkCandidates := by
  have hfind := (arrived_of_mem_listed hs hroot d hd).find_of_leads (hs.isName_of_mem hname) hleads
    hrefused
  exact mem_walkCandidates_iff.mpr
    ⟨d, hd, name, Snapshot.mem_filesIn_iff.mpr ⟨hname, target, content, hfind⟩, rfl⟩

/-- **The walk lists each directory once.**  It ends after one round for each entry of the file
system and one for the root.  What it finds are regular files in directories that it lists, and no
directory is listed under two paths, whatever the exclude globs are.  Without exclude globs every
directory that is reached is listed under one path, with all names in it that lead to regular files,
except for look-ups that are refused under that path. -/
theorem walk_lists_each_directory_once (hs : sc.world.snapshot.Proper)
    (hroot : sc.world.snapshot.entryAt sc.root = some .directory) :
    (sc.walkEncounters = sc.rounds.flatMap (Visit.encounters sc.world.snapshot sc.root) ∧
      sc.rounds.length ≤ sc.world.snapshot.entries.length + 1) ∧
    (∀ file ∈ sc.walkCandidates, ∃ d ∈ sc.listed, ∃ name ∈ sc.world.snapshot.namesIn d.place,
      directoryNames file = d.path ∧ file = join (d.path ++ [name]) ∧ sc.LiesIn file d.place ∧
      ∃ target content, sc.world.snapshot.Leads d.place name target (.file content)) ∧
    (∀ file ∈ sc.walkCandidates, ∀ file' ∈ sc.walkCandidates, ∀ place,
      sc.LiesIn file place → sc.LiesIn file' place → directoryNames file = directoryNames file') ∧
    ((sc.walkEncounters.filterMap Encounter.file?).map join).Nodup ∧
    ((∀ path, sc.matchesExcludes path = false) → ∀ place, sc.Reached place →
      ∃ path, (∀ path', ⟨path', place⟩ ∈ sc.listed ↔ path' = path) ∧
        ∀ name target content, name ∈ sc.world.snapshot.namesIn place →
          sc.world.snapshot.Leads place name target (.file content) →
          ¬ sc.world.snapshot.Refuses sc.root (path ++ [name]) →
          join (path ++ [name]) ∈ sc.walkCandidates) := by
  refine ⟨⟨walk_eq_flatMap _ _ _ _ _, ?_⟩,
    fun file h => exists_listed_of_mem_walkCandidates hs hroot h, ?_, nodup_files hs hroot, ?_⟩
  · rw [Nat.add_comm]
    exact length_visits_le hs.nodup_directories [⟨[], sc.root⟩]
  · intro file hfile file' hfile' place hplace hplace'
    obtain ⟨d, hd, name, -, hpath, -, hlies, -⟩ :=
      exists_listed_of_mem_walkCandidates hs hroot hfile
    obtain ⟨d', hd', name', -, hpath', -, hlies', -⟩ :=
      exists_listed_of_mem_walkCandidates hs hroot hfile'
    have hsame : d.place = d'.place := by
      rw [← Except.ok.inj (hplace.symm.trans hlies), Except.ok.inj (hplace'.symm.trans hlies')]
    rw [hpath, hpath', eq_of_mem_listed hs hd hd' hsame]
  · intro hexcludes place hreached
    obtain ⟨d, hd, rfl⟩ := hreached.exists_listed hs hroot hexcludes
    refine ⟨d.path, fun path' => ⟨fun h => ?_, fun h => h ▸ hd⟩,
      fun name target content hname hleads hrefused =>
        mem_walkCandidates_of_leads hs hroot hd hname hleads hrefused⟩
    exact congrArg Pending.path (eq_of_mem_listed hs h hd rfl)

/-! ## A chain of links -/

/-- The name of a link in the chain: a character, counted from the digit zero. -/
def chainName (n : Nat) : String :=
  String.singleton (Char.ofNat (48 + n))

/-- Two entries of the root link to one directory: the first through a chain that uses up all links
that a path may go through, the second at once.  One of the files in this directory is a link. -/
def chainSnapshot : Snapshot :=
  ⟨[(["x"], .directory), (["x", "a"], .link "../0"), (["x", "b"], .link "../d"),
    (["d"], .directory), (["d", "f.py"], .link "../e/f.py"), (["d", "g.py"], .file []),
    (["e"], .directory), (["e", "f.py"], .file [])] ++
    (List.range 38).map (fun n => ([chainName n], .link (chainName (n + 1)))) ++
    [([chainName 38], .link "d")]⟩

/-- The scanner that walks this root without any globs. -/
def chainScanner : Scanner :=
  { sampleScanner [] with
    world := { sampleWorld with snapshot := chainSnapshot }, root := ["x"], excludes := none,
    usesGit := false }

section Chain

open Snapshot (find_of_follow follow_cons follow_link follow_link_up follow_link_zero follow_nil
  maxLinks)

theorem chain_proper : chainSnapshot.Proper := by
  decide +kernel

theorem chain_entryAt : ∀ n < 38,
    chainSnapshot.entryAt [chainName n] = some (.link (chainName (n + 1))) := by
  decide +kernel

theorem chain_names : ∀ n < 39, IsName (chainName n) ∧
    (chainName n).utf8ByteSize ≤ Snapshot.maxNameBytes ∧
    Snapshot.startOf [] (chainName n) = [] ∧ Snapshot.namesOf (chainName n) = [chainName n] := by
  decide +kernel

theorem chain_directory : chainSnapshot.entryAt ["d"] = some .directory := by
  decide

theorem chain_root : chainSnapshot.entryAt ["x"] = some .directory := by
  decide

/-- The end of the chain leads to the directory, from each of its links on. -/
theorem chain_follow (budget : Nat) (rest : List String) {n : Nat} (hn : n ≤ 38) :
    chainSnapshot.follow .look (budget + n + 1) [] (chainName (38 - n) :: rest) =
      chainSnapshot.follow .look budget [] ("d" :: rest) := by
  induction n with
  | zero =>
      have hentry : chainSnapshot.entryAt ([] ++ [chainName 38]) = some (.link "d") := by
        decide
      have hname := chain_names 38 (by decide)
      have hstart : Snapshot.startOf [] "d" = [] := by decide
      have hnames : Snapshot.namesOf "d" = ["d"] := by decide
      rw [Nat.add_zero, Nat.sub_zero, follow_link rest rfl hname.1 hname.2.1 hentry, hnames, hstart,
        List.singleton_append]
  | succ n ih =>
      have hname := chain_names (38 - (n + 1)) (by omega)
      have htarget := chain_names (38 - n) (by omega)
      have hentry := chain_entryAt (38 - (n + 1)) (by omega)
      have hnext : 38 - (n + 1) + 1 = 38 - n := by omega
      rw [hnext] at hentry
      rw [← Nat.add_assoc, follow_link rest rfl hname.1 hname.2.1 hentry, htarget.2.2.1,
        htarget.2.2.2, List.singleton_append, ih (by omega)]

theorem chain_follow_d (budget : Nat) {rest : List String}
    (hslash : Snapshot.isSlashEnd rest = false) :
    chainSnapshot.follow .look budget [] ("d" :: rest) =
      chainSnapshot.follow .look budget ["d"] rest :=
  follow_cons rfl (by decide) (by decide) hslash chain_directory nofun

/-- The first entry of the root uses up all links. -/
theorem chain_follow_a {rest : List String} (hslash : Snapshot.isSlashEnd rest = false) :
    chainSnapshot.follow .look maxLinks ["x"] ("a" :: rest) =
      chainSnapshot.follow .look 0 ["d"] rest := by
  have hentry : chainSnapshot.entryAt ["x", "a"] = some (.link "../0") := by decide
  calc chainSnapshot.follow .look (39 + 1) ["x"] ("a" :: rest)
      = chainSnapshot.follow .look 39 [] (chainName 0 :: rest) :=
        follow_link_up rest chain_root (by decide) (by decide) hentry (by decide)
          (by decide : Snapshot.namesOf "../0" = ["..", chainName 0])
    _ = chainSnapshot.follow .look 0 [] ("d" :: rest) := chain_follow 0 rest (le_refl 38)
    _ = chainSnapshot.follow .look 0 ["d"] rest := chain_follow_d 0 hslash

/-- The second entry of the root uses up one link. -/
theorem chain_follow_b {rest : List String} (hslash : Snapshot.isSlashEnd rest = false) :
    chainSnapshot.follow .look maxLinks ["x"] ("b" :: rest) =
      chainSnapshot.follow .look 39 ["d"] rest := by
  have hentry : chainSnapshot.entryAt ["x", "b"] = some (.link "../d") := by decide
  calc chainSnapshot.follow .look (39 + 1) ["x"] ("b" :: rest)
      = chainSnapshot.follow .look 39 [] ("d" :: rest) :=
        follow_link_up rest chain_root (by decide) (by decide) hentry (by decide)
          (by decide : Snapshot.namesOf "../d" = ["..", "d"])
    _ = chainSnapshot.follow .look 39 ["d"] rest := chain_follow_d 39 hslash

theorem chain_entryAt_f : chainSnapshot.entryAt ["d", "f.py"] = some (.link "../e/f.py") := by
  decide

theorem chain_entryAt_e_f : chainSnapshot.entryAt ["e", "f.py"] = some (.file []) := by
  decide

/-- The link in the directory leads to a file, if a link is left. -/
theorem chain_follow_f (budget : Nat) :
    chainSnapshot.follow .look (budget + 1) ["d"] ["f.py"] = .ok ["e", "f.py"] := by
  have he : chainSnapshot.entryAt ["e"] = some .directory := by decide
  calc chainSnapshot.follow .look (budget + 1) ["d"] ["f.py"]
      = chainSnapshot.follow .look budget [] ["e", "f.py"] :=
        follow_link_up [] chain_directory (by decide) (by decide) chain_entryAt_f (by decide)
          (by decide : Snapshot.namesOf "../e/f.py" = ["..", "e", "f.py"])
    _ = chainSnapshot.follow .look budget ["e"] ["f.py"] :=
        follow_cons rfl (by decide) (by decide) (by decide) he nofun
    _ = chainSnapshot.follow .look budget ["e", "f.py"] [] :=
        follow_cons he (by decide) (by decide) rfl chain_entryAt_e_f nofun
    _ = .ok ["e", "f.py"] := follow_nil ..

theorem chain_entryAt_g : chainSnapshot.entryAt ["d", "g.py"] = some (.file []) := by
  decide

theorem chain_follow_g (budget : Nat) :
    chainSnapshot.follow .look budget ["d"] ["g.py"] = .ok ["d", "g.py"] := by
  calc chainSnapshot.follow .look budget ["d"] ["g.py"]
      = chainSnapshot.follow .look budget ["d", "g.py"] [] :=
        follow_cons chain_directory (by decide) (by decide) rfl chain_entryAt_g nofun
    _ = .ok ["d", "g.py"] := follow_nil ..

/-- The link in the directory cannot be followed any more below the first entry. -/
theorem chain_find_a_f : chainSnapshot.find? ["x"] ["a", "f.py"] = none := by
  have hlocate : chainSnapshot.locate ["x"] (join ["a", "f.py"]) = .error .tooManyLinks := by
    rw [Snapshot.locate_join_of_isName _ _ (by decide), if_neg (by decide), chain_follow_a rfl]
    exact follow_link_zero [] chain_directory (by decide) (by decide) chain_entryAt_f
  rw [Snapshot.find?, hlocate]

theorem chain_find_a_g :
    chainSnapshot.find? ["x"] ["a", "g.py"] = some (["d", "g.py"], .file []) :=
  find_of_follow (by decide) (by decide) ((chain_follow_a rfl).trans (chain_follow_g 0))
    chain_entryAt_g

theorem chain_find_b_f :
    chainSnapshot.find? ["x"] ["b", "f.py"] = some (["e", "f.py"], .file []) :=
  find_of_follow (by decide) (by decide) ((chain_follow_b rfl).trans (chain_follow_f 38))
    chain_entryAt_e_f

theorem chain_leads_a : chainSnapshot.Leads ["x"] "a" ["d"] .directory :=
  ⟨(chain_follow_a rfl).trans (follow_nil ..), chain_directory⟩

theorem chain_leads_b : chainSnapshot.Leads ["x"] "b" ["d"] .directory :=
  ⟨(chain_follow_b rfl).trans (follow_nil ..), chain_directory⟩

theorem chain_find_a : chainSnapshot.find? ["x"] ["a"] = some (["d"], .directory) :=
  find_of_follow (by decide) (by decide) chain_leads_a.1 chain_directory

theorem chain_find_b : chainSnapshot.find? ["x"] ["b"] = some (["d"], .directory) :=
  find_of_follow (by decide) (by decide) chain_leads_b.1 chain_directory

theorem chain_namesIn_x : chainSnapshot.namesIn ["x"] = ["a", "b"] := by
  decide

theorem chain_namesIn_d : chainSnapshot.namesIn ["d"] = ["f.py", "g.py"] := by
  decide

/-- Only the directory below the first entry is listed. -/
theorem chain_listed : chainScanner.listed = [⟨[], ["x"]⟩, ⟨["a"], ["d"]⟩] := by
  have hx : entered chainSnapshot ["x"] chainScanner.enters ⟨[], ["x"]⟩ =
      [⟨["a"], ["d"]⟩, ⟨["b"], ["d"]⟩] := by
    have hsorted : [("a", ["d"]), ("b", ["d"])].mergeSort
        (fun (m n : String × Place) => decide (m.1 ≤ n.1)) = [("a", ["d"]), ("b", ["d"])] :=
      List.mergeSort_of_pairwise (by decide)
    have hbelow : chainSnapshot.subdirectories ["x"] [] ["x"] = [("a", ["d"]), ("b", ["d"])] := by
      rw [Snapshot.subdirectories, chain_namesIn_x]
      simp [chain_find_a, chain_find_b]
    rw [entered, hbelow, hsorted]
    rfl
  have hd : entered chainSnapshot ["x"] chainScanner.enters ⟨["a"], ["d"]⟩ = [] := by
    have hbelow : chainSnapshot.subdirectories ["x"] ["a"] ["d"] = [] := by
      rw [Snapshot.subdirectories, chain_namesIn_d]
      simp [chain_find_a_g, chain_find_a_f]
    rw [entered, hbelow, List.mergeSort_nil]
    rfl
  have hnodup := chain_proper.nodup_directories
  have hleft : ["d"] ∈ chainSnapshot.directories.erase ["x"] :=
    (List.mem_erase_of_ne (by decide)).mpr (Snapshot.mem_directories chain_directory)
  have hagain : ["d"] ∉ (chainSnapshot.directories.erase ["x"]).erase ["d"] :=
    (hnodup.erase ["x"]).not_mem_erase
  calc chainScanner.listed
      = listing chainSnapshot ["x"] chainScanner.enters chainSnapshot.directories
          [⟨[], ["x"]⟩] := rfl
    _ = ⟨[], ["x"]⟩ :: listing chainSnapshot ["x"] chainScanner.enters
          (chainSnapshot.directories.erase ["x"]) [⟨["a"], ["d"]⟩, ⟨["b"], ["d"]⟩] := by
        rw [listing_cons_of_mem [] (Snapshot.mem_directories chain_root), hx, List.append_nil]
    _ = [⟨[], ["x"]⟩, ⟨["a"], ["d"]⟩] := by
        rw [listing_cons_of_mem [⟨["b"], ["d"]⟩] hleft, hd, List.nil_append,
          listing_cons_of_not_mem [] hagain, listing_nil]

/-- The directory behind the links is listed, and the file in it that is no link is found. -/
theorem walk_lists_each_directory_once_sample :
    chainScanner.rounds.length ≤ chainSnapshot.entries.length + 1 ∧ chainScanner.Reached ["d"] ∧
      ∃ path, (∀ path', ⟨path', ["d"]⟩ ∈ chainScanner.listed ↔ path' = path) ∧
        join (path ++ ["g.py"]) ∈ chainScanner.walkCandidates := by
  obtain ⟨⟨-, hrounds⟩, -, -, -, hcover⟩ :=
    @walk_lists_each_directory_once chainScanner chain_proper chain_root
  have hreached : chainScanner.Reached ["d"] := by
    refine .step .root (chain_namesIn_x ▸ by decide) (by decide) chain_leads_a fun path hpath => ?_
    rw [chain_listed] at hpath
    obtain rfl : path = [] := by simpa [chainScanner] using hpath
    exact Snapshot.not_refuses_of_find chain_find_a
  obtain ⟨path, hpath, hfiles⟩ := hcover (fun _ => rfl) ["d"] hreached
  refine ⟨hrounds, hreached, path, hpath, ?_⟩
  obtain rfl : ["a"] = path := (hpath ["a"]).mp (by simp [chain_listed])
  exact hfiles "g.py" ["d", "g.py"] [] (chain_namesIn_d ▸ by decide)
    ⟨chain_follow_g maxLinks, chain_entryAt_g⟩ (Snapshot.not_refuses_of_find chain_find_a_g)

/-- **A file can be lost behind links.**  Both entries of the root lead to a directory, and its entry
`f.py` leads to a regular file, which can be read below the second entry.  But the directory is
listed below the first one, where the path of the file goes through one link too many, so that only
the other file of the directory is found. -/
theorem entry_lost_behind_links :
    chainSnapshot.Proper ∧ chainSnapshot.entryAt chainScanner.root = some .directory ∧
      (∀ path, chainScanner.matchesExcludes path = false) ∧
      (∀ name ∈ ["a", "b"], name ∈ chainSnapshot.namesIn chainScanner.root ∧
        name ∉ neverEntered ∧ chainSnapshot.Leads chainScanner.root name ["d"] .directory) ∧
      "f.py" ∈ chainSnapshot.namesIn ["d"] ∧
      chainSnapshot.Leads ["d"] "f.py" ["e", "f.py"] (.file []) ∧
      chainSnapshot.isFile chainScanner.root "b/f.py" = true ∧
      chainScanner.walkCandidates = ["a/g.py"] := by
  refine ⟨chain_proper, chain_root, fun _ => rfl, ?_, chain_namesIn_d ▸ by decide,
    ⟨chain_follow_f 39, chain_entryAt_e_f⟩, ?_, ?_⟩
  · intro name hname
    refine ⟨chain_namesIn_x ▸ hname, ?_⟩
    rcases List.mem_cons.mp hname with rfl | hname
    · exact ⟨by decide, chain_leads_a⟩
    · rw [List.mem_singleton.mp hname]
      exact ⟨by decide, chain_leads_b⟩
  · exact Snapshot.isFile_of_find chain_find_b_f
  · have hfiles : chainScanner.walkEncounters.filterMap Encounter.file? = [["a", "g.py"]] := by
      have hx : chainSnapshot.filesIn ["x"] [] ["x"] = [] := by
        rw [Snapshot.filesIn, chain_namesIn_x]
        simp [chain_find_a, chain_find_b]
      have hd : chainSnapshot.filesIn ["x"] ["a"] ["d"] = ["g.py"] := by
        rw [Snapshot.filesIn, chain_namesIn_d]
        simp [chain_find_a_g, chain_find_a_f]
      calc chainScanner.walkEncounters.filterMap Encounter.file?
          = (chainSnapshot.filesIn ["x"] [] ["x"]).map ([] ++ [·]) ++
              ((chainSnapshot.filesIn ["x"] ["a"] ["d"]).map (["a"] ++ [·]) ++ []) := by
            rw [filterMap_file_walkEncounters, chain_listed]
            rfl
        _ = [["a", "g.py"]] := by
            rw [hx, hd]
            rfl
    have hjoin : [["a", "g.py"]].map join = ["a/g.py"] := by decide
    rw [walkCandidates, filePaths, hfiles, hjoin, sortedNames, List.mergeSort_singleton]
    rfl

end Chain

end CodeChallenges.Repository.Scanner

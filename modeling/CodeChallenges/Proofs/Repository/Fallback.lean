import CodeChallenges.Proofs.Repository.Scan
/-!
# When git cannot list the files

A listing that fails leaves the scan with the walk, for which git does not matter: the files that it
chooses and their counts are those of a scanner that does not ask git at all
(`run_of_allowsWalk`).  But not every failure is let through to the walk.  Where git is missing, or
ends with an error, the directories are walked; where the system refuses to start it, the scan fails
as well (`failed_listing_walks_iff`).
-/

namespace CodeChallenges

/-! ## Failures of git -/

/-- A command gives no output. -/
def Git.Reply.Fails : Reply → Prop
  | .exited code _ _ => code ≠ 0
  | .missing => True
  | .notStarted _ _ => True

/-- A command that fails gives a failure, which allows the walk unless the command could not be
started. -/
theorem Git.exists_output_eq_error {reply : Reply} (h : reply.Fails) (args : List String) :
    ∃ failure, output args reply = .error failure ∧
      (failure.allowsWalk = true ↔
        ∀ fault detail, reply = .notStarted fault detail → fault = .runtime) := by
  cases reply with
  | exited code stdout stderr =>
      have hcode : (code == 0) = false := beq_eq_false_iff_ne.mpr h
      refine ⟨.failed args (firstDetail [stderr, stdout]), ?_, ?_⟩
      · rw [output, hcode]
        rfl
      · exact iff_of_true rfl (fun fault detail heq => nomatch heq)
  | missing =>
      exact ⟨.notFound, rfl, iff_of_true rfl (fun fault detail heq => nomatch heq)⟩
  | notStarted fault detail =>
      refine ⟨.notStarted fault detail, rfl, ?_⟩
      constructor
      · rintro hwalk _ _ ⟨⟩
        cases fault with
        | runtime => rfl
        | badValue => cases hwalk
        | system => cases hwalk
      · intro honly
        rw [honly fault detail rfl]
        rfl

namespace Repository.Scanner

variable {sc : Scanner} {r : Registry} {failure : Git.Failure}

/-! ## The walk instead of a listing -/

/-- A listing that fails is replaced by the walk, with a warning, or is passed on. -/
theorem candidates_of_failure (hgit : sc.usesGit = true)
    (hfail : Git.listPaths Git.lsFilesArgs sc.world.git.listing = .error failure) :
    sc.candidates = if failure.allowsWalk = true
      then .ok (sc.walked.1, sc.fallbackWarning failure :: sc.walked.2)
      else .error (.git failure) := by
  have hcandidates : sc.gitCandidates = .error (.git failure) := by
    rw [gitCandidates, hfail]
    rfl
  rw [candidates, if_pos hgit, hcandidates]

/-- A scanner that does not ask git takes what the walk finds. -/
theorem candidates_asking_false (sc : Scanner) :
    (sc.asking false).candidates = .ok (sc.walked.1, sc.walked.2) :=
  if_neg Bool.false_ne_true

/-- A failure that allows the walk leaves the choice of files and the counts to the walk. -/
theorem run_of_allowsWalk (hgit : sc.usesGit = true)
    (hfail : Git.listPaths Git.lsFilesArgs sc.world.git.listing = .error failure)
    (hwalk : failure.allowsWalk = true) :
    ∃ out walked, sc.run r none = .ok out ∧ (sc.asking false).run r none = .ok walked ∧
      out.found = walked.found ∧ out.stats = walked.stats ∧
      out.messages = sc.fallbackWarning failure :: walked.messages := by
  have hcandidates := candidates_of_failure hgit hfail
  rw [if_pos hwalk] at hcandidates
  have hexcluded : ∀ path, (sc.asking false).isExcluded path = sc.isExcluded path := fun path => rfl
  have hwanted : ∀ path, (sc.asking false).wantedLanguage r path = sc.wantedLanguage r path :=
    fun path => rfl
  have hchoose : (sc.asking false).choose r = sc.choose r := rfl
  refine ⟨_, _, run_eq_ok_iff.mpr ⟨_, _, hcandidates, rfl⟩,
    run_eq_ok_iff.mpr ⟨_, _, candidates_asking_false sc, rfl⟩, ?_, ?_, rfl⟩
  · dsimp only
    rw [hchoose]
  · dsimp only
    rw [select_congr hexcluded hwanted]

/-- Any other failure stops the scan. -/
theorem run_of_not_allowsWalk (hgit : sc.usesGit = true)
    (hfail : Git.listPaths Git.lsFilesArgs sc.world.git.listing = .error failure)
    (hwalk : ¬ failure.allowsWalk = true) : sc.run r none = .error (.git failure) := by
  have hcandidates := candidates_of_failure hgit hfail
  rw [if_neg hwalk] at hcandidates
  have hlimit : ((none : Option Nat) == some 0) = false := rfl
  rw [run, hlimit, if_neg Bool.false_ne_true, hcandidates]
  rfl

/-- **A failing listing falls back to the walk** unless git could not be started for another cause
than that it is missing.  The same root can be opened without git; then the files that are chosen
and their counts are the same, if the scan has a result at all.  It has none, but fails with what
kept git from being started, exactly in that case. -/
theorem failed_listing_walks_iff {w : World} {root : String} {o : Options} {useGit : Option Bool}
    {warnings : List Log.Message} (hopen : Scanner.open w root o useGit = .ok (sc, warnings))
    (hgit : sc.usesGit = true) (hfails : w.git.listing.Fails) :
    Scanner.open w root o (some false) = .ok (sc.asking false, warnings) ∧
    ∃ walked, (sc.asking false).run r none = .ok walked ∧
      ((∃ out, sc.run r none = .ok out) ↔
        ∀ fault detail, w.git.listing = .notStarted fault detail → fault = .runtime) ∧
      (∀ out, sc.run r none = .ok out →
        out.found = walked.found ∧ out.stats = walked.stats) ∧
      ∀ fault detail, w.git.listing = .notStarted fault detail → fault ≠ .runtime →
        sc.run r none = .error (.git (.notStarted fault detail)) := by
  refine ⟨open_asking hopen false, ?_⟩
  obtain ⟨-, rfl, -⟩ := open_eq_ok hopen
  obtain ⟨failure, houtput, hcaught⟩ := Git.exists_output_eq_error hfails
    (Git.listingArgs Git.lsFilesArgs)
  have hfail : Git.listPaths Git.lsFilesArgs sc.world.git.listing = .error failure := by
    rw [Git.listPaths, houtput]
    rfl
  by_cases hwalk : failure.allowsWalk = true
  · obtain ⟨out, walked, hrun, hwalked, hfound, hstats, -⟩ :=
      run_of_allowsWalk (r := r) hgit hfail hwalk
    refine ⟨walked, hwalked, iff_of_true ⟨out, hrun⟩ (hcaught.mp hwalk), ?_, ?_⟩
    · intro out' hrun'
      cases hrun.symm.trans hrun'
      exact ⟨hfound, hstats⟩
    · intro fault detail hreply hfault
      exact absurd (hcaught.mp hwalk fault detail hreply) hfault
  · have hstops : sc.run r none = .error (.git failure) := run_of_not_allowsWalk hgit hfail hwalk
    refine ⟨_, run_eq_ok_iff.mpr ⟨_, _, candidates_asking_false sc, rfl⟩, ?_, ?_, ?_⟩
    · refine iff_of_false ?_ fun honly => hwalk (hcaught.mpr honly)
      rintro ⟨out, hrun⟩
      cases hstops.symm.trans hrun
    · intro out hrun
      cases hstops.symm.trans hrun
    · intro fault detail hreply _
      rw [hreply] at houtput
      cases houtput
      exact hstops

/-! ## A repository in which git fails -/

/-- The same scanner in a world in which git replies otherwise to the question for a listing. -/
def replying (sc : Scanner) (reply : Git.Reply) : Scanner :=
  { sc with world := { sc.world with git := { sc.world.git with listing := reply } } }

/-- Opening a root does not look at a listing. -/
theorem open_replying {w : World} {root : String} {o : Options} {useGit : Option Bool}
    {warnings : List Log.Message} (hopen : Scanner.open w root o useGit = .ok (sc, warnings))
    (reply : Git.Reply) :
    Scanner.open { w with git := { w.git with listing := reply } } root o useGit =
      .ok (sc.replying reply, warnings) := by
  obtain ⟨hplace, hexcludes, hincludes, hignored, husesGit, rfl, hoptions⟩ :=
    open_eq_ok_iff.mp hopen
  refine open_eq_ok_iff.mpr
    ⟨hplace, hexcludes, hincludes, hignored, ?_, rfl, hoptions⟩
  cases useGit
  · exact husesGit
  · exact husesGit

/-- A walk does not look at a listing. -/
theorem run_replying (sc : Scanner) (reply : Git.Reply) (r : Registry) :
    ((sc.replying reply).asking false).run r none = (sc.asking false).run r none := by
  have hcandidates : ((sc.replying reply).asking false).candidates = (sc.asking false).candidates :=
    rfl
  have hexcluded : ∀ path, ((sc.replying reply).asking false).isExcluded path =
      (sc.asking false).isExcluded path := fun path => rfl
  have hwanted : ∀ path, ((sc.replying reply).asking false).wantedLanguage r path =
      (sc.asking false).wantedLanguage r path := fun path => rfl
  exact run_congr hcandidates hexcluded hwanted rfl none

/-- The walk finds the one file of the small repository. -/
theorem sample_walk (reply : Git.Reply) : ∃ walked,
    (((sampleScanner []).replying reply).asking false).run sampleRegistry none = .ok walked ∧
      walked.found = [("a/b/f.sample", sampleLanguage)] := by
  obtain ⟨byGit, byWalk, hgit, hwalk, -, hpruned⟩ := found_walk_eq_filter
    (r := sampleRegistry) sample_plain (sample_oneMark []) (sample_listsFiles [])
  obtain ⟨scan, hscan, hfound⟩ := sample_run
  have hasking : (sampleScanner []).asking true = sampleScanner [] := rfl
  rw [hasking, hscan] at hgit
  cases hgit
  have hbelow : (sampleScanner []).isBelowMatch "a/b/f.sample" = false := by decide +kernel
  refine ⟨byWalk, (run_replying _ reply _).trans hwalk, ?_⟩
  rw [hpruned, hfound, List.filter_cons_of_pos (by rw [hbelow]; rfl), List.filter_nil]

/-- Where the system refuses to start git, the small repository is not scanned, although the walk
finds its file. -/
theorem refused_git_stops_scan : ∃ w sc,
    w.git.listing = .notStarted .system "Permission denied" ∧
    Scanner.open w "/r" (sampleOptions []) none = .ok (sc, []) ∧ sc.usesGit = true ∧
    sc.run sampleRegistry none = .error (.git (.notStarted .system "Permission denied")) ∧
    ∃ walked, (sc.asking false).run sampleRegistry none = .ok walked ∧
      walked.found = [("a/b/f.sample", sampleLanguage)] := by
  refine ⟨_, (sampleScanner []).replying (.notStarted .system "Permission denied"), rfl,
    open_replying sample_open _, rfl, ?_, sample_walk _⟩
  exact run_of_not_allowsWalk rfl rfl Bool.false_ne_true

/-- Where git ends with an error, the small repository is walked, and its file is found. -/
theorem failed_listing_walks_sample : ∃ w sc out,
    w.git.listing = .exited 128 "" "fatal: not a git repository" ∧ w.git.listing.Fails ∧
    Scanner.open w "/r" (sampleOptions []) none = .ok (sc, []) ∧ sc.usesGit = true ∧
    sc.run sampleRegistry none = .ok out ∧
    out.found = [("a/b/f.sample", sampleLanguage)] := by
  have hopen := open_replying sample_open (.exited 128 "" "fatal: not a git repository")
  have hfails : Git.Reply.Fails (.exited 128 "" "fatal: not a git repository") := by
    show (128 : Int) ≠ 0
    decide
  obtain ⟨-, walked, hwalked, hresult, hsame, -⟩ :=
    failed_listing_walks_iff (r := sampleRegistry) hopen rfl hfails
  obtain ⟨out, hout⟩ := hresult.mpr fun fault detail heq => nomatch heq
  obtain ⟨walked', hwalked', hfound⟩ := sample_walk (.exited 128 "" "fatal: not a git repository")
  cases hwalked.symm.trans hwalked'
  refine ⟨_, _, out, rfl, hfails, hopen, rfl, hout, ?_⟩
  rw [(hsame out hout).1, hfound]

end Repository.Scanner

end CodeChallenges

import CodeChallenges.Proofs.Extraction.Schedule
/-!
# The counters of a report agree

The counters are filled in by the scan, by the files and by what adds up the results.  Every file
that was scanned is in one of them, except for files whose task was cancelled, which are in none.

Of its candidates a file itself tells how many there were and how many it dropped.  Since every
selected candidate gives one challenge, these two counts and the number of its challenges agree
(`processFile_balanced`), and so do the sums (`extractWith_accounts`).
-/

namespace CodeChallenges

namespace Report

/-- The number of files that are in a counter of their own. -/
def accountedFiles (r : Report) : Int :=
  r.unsupportedFiles + r.excludedFiles + r.filesProcessed + r.skippedTotal

/-- The counters of a report agree. -/
structure Accounts (r : Report) : Prop where
  chunks_eq : r.candidateChunks = r.droppedChunks + r.challenges
  dropped_nonneg : 0 ≤ r.droppedChunks
  files_le : r.accountedFiles ≤ r.filesScanned
  files_eq_iff : r.accountedFiles = r.filesScanned ↔ r.cancelled = false

end Report

namespace Extraction

open Repository (Scanner Snapshot Place GitService)
open Repository.Scanner (sampleOptions mixedFound mixed_run)

/-! ## Results -/

/-- A task that did not end the run was done, skipped or cancelled, and only one of these. -/
theorem Ending.one_of_three {ending : Ending} (h : ending.fatal? = none) :
    (if ending.isDone = true then 1 else 0) + (if ending.isSkipped = true then 1 else 0) +
      (if ending.isCancelled = true then 1 else 0) = 1 := by
  cases ending with
  | done count made => rfl
  | skipped reason => rfl
  | cancelled => rfl
  | fatal failure => cases h

theorem countP_endings {results : List Result}
    (h : ∀ result ∈ results, result.ending.fatal? = none) :
    results.countP (·.ending.isDone) + results.countP (·.ending.isSkipped) +
      results.countP (·.ending.isCancelled) = results.length := by
  induction results with
  | nil => rfl
  | cons result results ih =>
      obtain ⟨hresult, hrest⟩ := List.forall_mem_cons.mp h
      have hone := Ending.one_of_three hresult
      have hcount := ih hrest
      simp only [List.countP_cons, List.length_cons]
      omega

/-! ## Candidates of a file -/

/-- Every candidate of a task that was done is dropped or gave a challenge. -/
structure Ending.Balanced (ending : Ending) : Prop where
  dropped_nonneg : 0 ≤ ending.dropped
  candidates_eq : ending.candidates = ending.dropped + ending.challenges.length

/-- A task that was not done has no candidates. -/
theorem Ending.balanced_of_not_done {ending : Ending} (h : ending.isDone = false) :
    ending.Balanced := by
  cases ending with
  | done count dropped made => cases h
  | skipped reason | cancelled | fatal failure => exact ⟨Int.le_refl 0, rfl⟩

/-- What a file drops and the challenges that it gives make up its candidates: each selected
candidate gives one challenge, and the file drops the others. -/
theorem processFile_balanced (t : Toolkit) (r : Registry) (o : Options) (snapshot : Snapshot)
    (root : Place) (git : Option GitService) (path : String) (l : Language) :
    (endingOf (processFile t r o snapshot root git path l)).Balanced := by
  cases hprocess : processFile t r o snapshot root git path l with
  | error fault =>
      refine Ending.balanced_of_not_done ?_
      cases fault <;> rfl
  | ok processed =>
      obtain ⟨⟨reason⟩ | ⟨count, made⟩, dropped, messages⟩ := processed
      · exact Ending.balanced_of_not_done rfl
      · obtain ⟨content, hread⟩ := exists_read_of_processFile hprocess
        obtain ⟨-, -, -, structural, further, -, -, hcounted⟩ :=
          processFile_collected hprocess hread
        exact ⟨hcounted.dropped_nonneg, hcounted.count_eq_add⟩

theorem Job.balanced_attempt (j : Job) (cancelled : Bool) (task : Task) :
    (j.attempt cancelled task).result.ending.Balanced := by
  cases cancelled with
  | true => exact Ending.balanced_of_not_done rfl
  | false => exact processFile_balanced ..

/-- On every schedule the results that arrive are balanced. -/
theorem Job.balanced_attempts (j : Job) (schedule : Schedule) (tasks : List Task) :
    ∀ result ∈ (j.attempts schedule tasks).map Attempt.result, result.ending.Balanced := by
  intro result hresult
  obtain ⟨task, -, rfl⟩ :=
    List.mem_map.mp ((j.attempts_perm schedule tasks).mem_iff.mp hresult)
  exact j.balanced_attempt (schedule.cancelled task) task

/-- Balanced results are balanced together. -/
theorem sum_candidates {results : List Result}
    (h : ∀ result ∈ results, result.ending.Balanced) :
    0 ≤ (results.map (·.ending.dropped)).sum ∧
      (results.map (·.ending.candidates)).sum =
        (results.map (·.ending.dropped)).sum +
          ((results.flatMap (·.ending.challenges)).length : Int) := by
  induction results with
  | nil => exact ⟨Int.le_refl 0, rfl⟩
  | cons result results ih =>
      obtain ⟨hresult, hrest⟩ := List.forall_mem_cons.mp h
      obtain ⟨hnonneg, hsum⟩ := ih hrest
      have hdropped := hresult.dropped_nonneg
      have hcandidates := hresult.candidates_eq
      rw [List.map_cons, List.sum_cons, List.map_cons, List.sum_cons, List.flatMap_cons,
        List.length_append, Int.natCast_add]
      constructor <;> omega

/-! ## Counters -/

/-- The counters agree once a tally that began with the counts of a scan has taken in a result for
each chosen file. -/
theorem Tally.Adds.accounts {stats : Scanner.Stats} {results : List Result} {t : Tally}
    (h : (startTally stats).Adds results t) (hfatal : t.fatal = none)
    (hbalanced : ∀ result ∈ results, result.ending.Balanced)
    (hseen : stats.seen = stats.unsupported + stats.excluded + results.length) :
    { t.report with challenges := t.challenges.length }.Accounts := by
  have hnone : ∀ result ∈ results, result.ending.fatal? = none := by
    rw [h.fatal_eq] at hfatal
    exact List.findSome?_eq_none_iff.mp hfatal
  have hfiles : t.report.accountedFiles + results.countP (·.ending.isCancelled) =
      t.report.filesScanned := by
    have hcount := countP_endings hnone
    rw [Report.accountedFiles, h.unsupportedFiles_eq, h.excludedFiles_eq, h.filesProcessed_eq,
      h.skippedTotal_eq, h.filesScanned_eq]
    show (stats.unsupported : Int) + stats.excluded + (0 + _) + (0 + _) + _ = (stats.seen : Int)
    omega
  have hcancelled : t.report.cancelled = false ↔ results.countP (·.ending.isCancelled) = 0 := by
    rw [h.cancelled_eq, List.countP_eq_zero]
    show (false || results.any (·.ending.isCancelled)) = false ↔ _
    rw [Bool.false_or, List.any_eq_false]
  obtain ⟨hnonneg, hsum⟩ := sum_candidates hbalanced
  constructor
  · show t.report.candidateChunks = t.report.droppedChunks + t.challenges.length
    rw [h.candidateChunks_eq, h.droppedChunks_eq, h.challenges_eq, hsum]
    show 0 + _ = 0 + _ + (([] ++ _ : List Challenge).length : Int)
    rw [List.nil_append]
    omega
  · show 0 ≤ t.report.droppedChunks
    rw [h.droppedChunks_eq]
    show 0 ≤ 0 + _
    omega
  · show t.report.accountedFiles ≤ t.report.filesScanned
    omega
  · show t.report.accountedFiles = t.report.filesScanned ↔ t.report.cancelled = false
    rw [hcancelled]
    omega

/-! ## Runs -/

/-- **The report of a run that returns** counts the challenges that the run returns, and its
counters agree. -/
theorem extractWith_accounts {e : Surroundings} {root : String} {o : Options} {schedule : Schedule}
    {log log' : List Log.Message} {harvest : Harvest}
    (h : (extractWith e root o schedule).run log = (.ok harvest, log')) :
    harvest.report.Accounts ∧ harvest.report.challenges = harvest.challenges.length := by
  obtain ⟨scanner, scan, hready, hfatal, rfl⟩ := extractWith_eq_ok_iff.mp ⟨log', h⟩
  have hresults : ((((e.job scanner).attempts schedule (tasksOf scan.found)).map
      Attempt.result).length) = scan.found.length := by
    rw [((e.job scanner).attempts_perm schedule (tasksOf scan.found)).length_eq, Job.results,
      List.length_map, length_tasksOf]
  have hseen := Scanner.run_seen_eq hready.scanned
  rw [← hresults] at hseen
  have haccounts := ((e.job scanner).tally_adds schedule scan).accounts hfatal
    ((e.job scanner).balanced_attempts schedule _) hseen
  have hlength : (((e.job scanner).harvest schedule scan).challenges.length : Int) =
      ((e.job scanner).tally schedule scan).challenges.length := by
    rw [Job.harvest, finish, List.length_mergeSort]
  refine ⟨?_, rfl⟩
  show { ((e.job scanner).tally schedule scan).report with
    challenges := (((e.job scanner).harvest schedule scan).challenges.length : Int) }.Accounts
  rw [hlength]
  exact haccounts

/-- The schedule in which results arrive in the reverse order of the tasks. -/
def Schedule.backwards (cancelled : Task → Bool) : Schedule :=
  ⟨cancelled, List.reverse, List.reverse_perm⟩

/-- The results of the mixed run arrive from the last to the first. -/
theorem mixed_arrivals : ∃ first second : List Challenge,
    first.length + second.length = 4 ∧
    ((mixedJob true []).attempts (.backwards mixedCancelled) (tasksOf mixedFound)).map
      Attempt.result =
        [⟨3, "d.sample", .done 3 1 second⟩, ⟨2, "c.sample", .cancelled⟩,
          ⟨1, "b.sample", .skipped .binary⟩, ⟨0, "a.sample", .done 3 1 first⟩] := by
  obtain ⟨first, second, messages, messages', hfirst, hskipped, hsecond, hplaces⟩ :=
    mixed_process true []
  have hlength := congrArg List.length hplaces
  rw [List.length_map, List.length_append] at hlength
  refine ⟨first, second, hlength, ?_⟩
  show [(⟨3, "d.sample", endingOf (Job.process _ _)⟩ : Result), ⟨2, "c.sample", .cancelled⟩,
    ⟨1, "b.sample", endingOf (Job.process _ _)⟩, ⟨0, "a.sample", endingOf (Job.process _ _)⟩] = _
  rw [hfirst, hskipped, hsecond]
  rfl

/-- The mixed run, in which a file is of no language, one is excluded, one is binary and one is
given up, accounts for five of six files. -/
theorem extractWith_accounts_sample : ∃ harvest log',
    (extractWith (mixedSurroundings true []) "/r" (sampleOptions ["x.*"])
      (.backwards mixedCancelled)).run [] = (.ok harvest, log') ∧
    (harvest.report.Accounts ∧ harvest.report.challenges = harvest.challenges.length) ∧
    (harvest.report.candidateChunks = 6 ∧ harvest.report.droppedChunks = 2 ∧
      harvest.challenges.length = 4) ∧
    harvest.report.filesScanned = 6 ∧ harvest.report.unsupportedFiles = 1 ∧
    harvest.report.excludedFiles = 1 ∧ harvest.report.filesProcessed = 2 ∧
    harvest.report.skippedTotal = 1 ∧ harvest.report.cancelled = true := by
  obtain ⟨scan, hscan, hfound, hstats⟩ := mixed_run
  obtain ⟨first, second, hlength, harrivals⟩ := mixed_arrivals
  have htally : (mixedJob true []).tally (.backwards mixedCancelled) scan =
      (startTally ⟨6, 1, 1, 4⟩).addAll [⟨3, "d.sample", .done 3 1 second⟩,
        ⟨2, "c.sample", .cancelled⟩, ⟨1, "b.sample", .skipped .binary⟩,
        ⟨0, "a.sample", .done 3 1 first⟩] := by
    rw [Job.tally, hfound, hstats, harrivals]
  have hfatal : ((mixedJob true []).tally (.backwards mixedCancelled) scan).fatal = none := by
    rw [htally]
    rfl
  obtain ⟨log', hrun⟩ :=
    extractWith_eq_ok_iff.mpr ⟨_, scan, mixed_ready hscan hfound, hfatal, rfl⟩
  have haccounts := extractWith_accounts hrun
  refine ⟨_, log', hrun, haccounts, ?_⟩
  rw [Job.harvest, htally]
  refine ⟨⟨rfl, rfl, ?_⟩, rfl, rfl, rfl, rfl, rfl, rfl⟩
  show (([] ++ second ++ first).mergeSort _).length = 4
  rw [List.length_mergeSort, List.nil_append, List.length_append]
  omega

end Extraction

end CodeChallenges

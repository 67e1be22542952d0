import CodeChallenges.Proofs.Extraction.Order
import CodeChallenges.Proofs.Extraction.Run
import CodeChallenges.Proofs.Extraction.Tally
/-!
# Runs do not depend on their schedule

Workers may come to the tasks of a run in any order, and after a cancellation they give some of the
tasks up.  What a run returns depends only on which tasks were given up: its challenges are those
of the other files, one file after the other in ascending order, and its counters are the same
whatever the number of workers and the order of arrival.
-/

namespace CodeChallenges.Extraction

open Repository (Scanner)
open Repository.Scanner (sampleOptions sampleScanner sampleLanguage mixedScanner mixedFound
  mixed_run)

/-! ## Results of attempts -/

/-- An attempt gives the challenges of its file unless it was cancelled. -/
theorem challenges_attempt (j : Job) (cancelled : Bool) (task : Task) :
    (j.attempt cancelled task).result.ending.challenges =
      if cancelled then [] else madeIn (j.process task) := by
  cases cancelled with
  | true => rfl
  | false =>
      show (endingOf (j.process task)).challenges = madeIn (j.process task)
      rcases j.process task with fault | ⟨⟨reason⟩ | ⟨count, made⟩, dropped, messages⟩
      · cases fault <;> rfl
      · rfl
      · rfl

/-- An attempt that was not cancelled is fatal only if a grammar fails. -/
theorem fatal_attempt {j : Job} {cancelled : Bool} {task : Task}
    (h : cancelled = false → ∀ failure, j.process task ≠ .error (.grammar failure)) :
    (j.attempt cancelled task).result.ending.fatal? = none := by
  cases cancelled with
  | true => rfl
  | false =>
      show (endingOf (j.process task)).fatal? = none
      cases hprocess : j.process task with
      | error fault =>
          cases fault with
          | grammar failure => exact absurd hprocess (h rfl failure)
          | _ => rfl
      | ok processed =>
          obtain ⟨⟨reason⟩ | ⟨count, made⟩, dropped, messages⟩ := processed
          · rfl
          · rfl

/-- The results of a run in the order of its tasks. -/
def Job.results (j : Job) (cancelled : Task → Bool) (tasks : List Task) : List Result :=
  tasks.map fun task => (j.attempt (cancelled task) task).result

theorem Job.challenges_results (j : Job) (cancelled : Task → Bool) (tasks : List Task) :
    (j.results cancelled tasks).flatMap (·.ending.challenges) = j.made cancelled tasks := by
  rw [results, made, List.flatMap_map]
  simp only [challenges_attempt]

/-- On any schedule the same results arrive, in some order. -/
theorem Job.attempts_perm (j : Job) (schedule : Schedule) (tasks : List Task) :
    ((j.attempts schedule tasks).map Attempt.result).Perm (j.results schedule.cancelled tasks) := by
  have hperm := (schedule.arrival_perm
    (tasks.map fun task => j.attempt (schedule.cancelled task) task)).map Attempt.result
  rw [List.map_map] at hperm
  exact hperm

/-- The tally of a run adds its results in the order of their arrival. -/
theorem Job.tally_adds (j : Job) (schedule : Schedule) (scan : Scanner.Outcome) :
    (startTally scan.stats).Adds ((j.attempts schedule (tasksOf scan.found)).map Attempt.result)
      (j.tally schedule scan) :=
  Tally.adds_addAll _ _

/-- The tally of a run holds the challenges of its files, in some order. -/
theorem Job.challenges_tally (j : Job) (schedule : Schedule) (scan : Scanner.Outcome) :
    (j.tally schedule scan).challenges.Perm
      (j.made schedule.cancelled (tasksOf scan.found)) := by
  rw [(j.tally_adds schedule scan).challenges_eq, ← j.challenges_results]
  exact (j.attempts_perm schedule (tasksOf scan.found)).flatMap_right _

/-- Nothing fatal arrives exactly if no task has a fatal end. -/
theorem Job.fatal_tally_eq_none_iff {j : Job} {schedule : Schedule} {scan : Scanner.Outcome} :
    (j.tally schedule scan).fatal = none ↔
      ∀ task ∈ tasksOf scan.found,
        (j.attempt (schedule.cancelled task) task).result.ending.fatal? = none := by
  rw [(j.tally_adds schedule scan).fatal_eq]
  show List.findSome? _ _ = none ↔ _
  rw [List.findSome?_eq_none_iff]
  have hperm := j.attempts_perm schedule (tasksOf scan.found)
  constructor
  · intro h task htask
    exact h _ (hperm.mem_iff.mpr (List.mem_map_of_mem htask))
  · intro h result hresult
    obtain ⟨task, htask, rfl⟩ := List.mem_map.mp (hperm.mem_iff.mp hresult)
    exact h task htask

/-- Nothing fatal arrives if no grammar fails. -/
theorem Job.fatal_tally {j : Job} {schedule : Schedule} {scan : Scanner.Outcome}
    (h : ∀ task ∈ tasksOf scan.found, schedule.cancelled task = false →
      ∀ failure, j.process task ≠ .error (.grammar failure)) :
    (j.tally schedule scan).fatal = none :=
  Job.fatal_tally_eq_none_iff.mpr fun task htask => fatal_attempt (h task htask)

/-- On schedules that give up the same tasks, the tallies have the same counters. -/
theorem Job.tally_alike (j : Job) {schedule schedule' : Schedule} (scan : Scanner.Outcome)
    (h : schedule.cancelled = schedule'.cancelled) :
    (j.tally schedule scan).report.Alike (j.tally schedule' scan).report := by
  have hperm := j.attempts_perm schedule (tasksOf scan.found)
  rw [h] at hperm
  have hperm' := j.attempts_perm schedule' (tasksOf scan.found)
  exact ((j.tally_adds schedule scan).alike_of_perm (j.tally_adds schedule' scan)
    (hperm.trans hperm'.symm)).1

/-! ## What a run returns -/

/-- The challenges of a run are those of its files, one file after the other. -/
theorem Job.challenges_harvest (j : Job) (schedule : Schedule) {scan : Scanner.Outcome}
    (h : Scanner.Ascending scan.found) :
    (j.harvest schedule scan).challenges = j.made schedule.cancelled (tasksOf scan.found) :=
  mergeSort_eq_of_ascending (j.made_ascending schedule.cancelled h)
    (j.challenges_tally schedule scan)

/-- On schedules that give up the same tasks, the reports have the same counters. -/
theorem Job.report_alike (j : Job) {schedule schedule' : Schedule} {scan : Scanner.Outcome}
    (hfound : Scanner.Ascending scan.found) (h : schedule.cancelled = schedule'.cancelled) :
    (j.harvest schedule scan).report.Alike (j.harvest schedule' scan).report := by
  have hcount : ((j.harvest schedule scan).challenges.length : Int) =
      (j.harvest schedule' scan).challenges.length := by
    rw [j.challenges_harvest schedule hfound, j.challenges_harvest schedule' hfound, h]
  exact { j.tally_alike scan h with challenges_eq := hcount }

/-- The reasons in the report of a run are distinct. -/
theorem Job.nodup_skipped (j : Job) (schedule : Schedule) (scan : Scanner.Outcome) :
    ((j.harvest schedule scan).report.skipped.map Prod.fst).Nodup :=
  Tally.nodup_skipped_addAll (t := startTally scan.stats) List.nodup_nil _

/-! ## The number of workers -/

/-- A run comes to its tasks with any number of workers for which the settings can be read. -/
theorem Ready.withWorkers {e : Surroundings} {root : String} {o : Options} {scanner : Scanner}
    {scan : Scanner.Outcome} (h : Ready e root o scanner scan) {workers : Option Int} {wanted : Int}
    (hwanted : wantedWorkers e { o with workers } = .ok wanted) :
    Ready e root { o with workers } (scanner.withWorkers workers) scan := by
  obtain ⟨warnings, hopen⟩ := h.opened
  exact {
    named_ready := h.named_ready
    opened := ⟨warnings, Scanner.open_withWorkers hopen workers⟩
    scanned := by rw [Scanner.run_withWorkers, h.scanned]
    present_ready := h.present_ready
    settings := ⟨wanted, hwanted⟩ }

/-- What becomes of a task does not depend on the number of workers. -/
theorem process_withWorkers (e : Surroundings) (scanner : Scanner) (workers : Option Int) :
    (e.job (scanner.withWorkers workers)).process = (e.job scanner).process := rfl

/-- No grammar fails on the task of the small run. -/
theorem sample_grammar {scan : Scanner.Outcome}
    (h : tasksOf scan.found = [⟨0, "a/b/f.sample", sampleLanguage⟩]) :
    ∀ task ∈ tasksOf scan.found, ∀ failure,
      (sampleSurroundings.job (sampleScanner [])).process task ≠ .error (.grammar failure) := by
  obtain ⟨made, messages, hprocessed, -⟩ := sample_processed
  have hprocess : (sampleSurroundings.job (sampleScanner [])).process
      ⟨0, "a/b/f.sample", sampleLanguage⟩ = .ok ⟨.challenges 3 made, 1, messages⟩ := hprocessed
  intro task htask failure hfailure
  rw [h] at htask
  rw [List.mem_singleton.mp htask, hprocess] at hfailure
  cases hfailure

/-- The run over the small repository returns the challenges of its one file, with any number of
workers. -/
theorem sample_returns (workers : Option Int) (wanted : Int)
    (hwanted : wantedWorkers sampleSurroundings { sampleOptions [] with workers } = .ok wanted) :
    ∃ harvest log',
      (extractWith sampleSurroundings "/r" { sampleOptions [] with workers }
        (.inOrder fun _ => false)).run [] = (.ok harvest, log') ∧
      harvest.challenges = madeIn ((sampleSurroundings.job (sampleScanner [])).process
        ⟨0, "a/b/f.sample", sampleLanguage⟩) := by
  obtain ⟨scan, hready, htasks⟩ := sample_ready
  have hprocess := process_withWorkers sampleSurroundings (sampleScanner []) workers
  have hfatal : ((sampleSurroundings.job ((sampleScanner []).withWorkers workers)).tally
      (.inOrder fun _ => false) scan).fatal = none := by
    refine Job.fatal_tally fun task htask _ failure => ?_
    rw [hprocess]
    exact sample_grammar htasks task htask failure
  obtain ⟨log', hrun⟩ :=
    extractWith_eq_ok_iff.mpr ⟨_, scan, hready.withWorkers hwanted, hfatal, rfl⟩
  refine ⟨_, log', hrun, ?_⟩
  rw [Job.challenges_harvest _ _ (Scanner.found_ascending hready.scanned), Job.made, htasks, hprocess]
  exact List.flatMap_singleton _ _

/-! ## Independence -/

/-- **What a run returns does not depend on its schedule or on the number of workers.**  If a run
comes to its tasks and no grammar fails, then on every schedule that gives up the same tasks, it
returns the challenges of the other files, one file after the other in ascending order, with the
same counters.  No two challenges share a path and a byte range, so the sort has no ties. -/
theorem extractWith_independent_of_schedule {e : Surroundings} {root : String} {o : Options}
    {scanner : Scanner} {scan : Scanner.Outcome} {cancelled : Task → Bool}
    (hready : Ready e root o scanner scan)
    (hgrammar : ∀ task ∈ tasksOf scan.found, cancelled task = false →
      ∀ failure, (e.job scanner).process task ≠ .error (.grammar failure)) :
    ∃ challenges report,
      challenges = ((tasksOf scan.found).flatMap fun task =>
        if cancelled task then [] else madeIn ((e.job scanner).process task)) ∧
      (tasksOf scan.found).Pairwise (fun a b => a.path < b.path) ∧
      (challenges.map fun c => (c.filePath, c.startByte, c.endByte)).Nodup ∧
      challenges.Pairwise (fun a b =>
        challengeLe e.registry a b = true ∧ challengeLe e.registry b a = false) ∧
      ∀ (workers : Option Int) (wanted : Int) (schedule : Schedule) (log : List Log.Message),
        wantedWorkers e { o with workers } = .ok wanted → schedule.cancelled = cancelled →
        ∃ harvest log',
          (extractWith e root { o with workers } schedule).run log = (.ok harvest, log') ∧
          harvest.challenges = challenges ∧ harvest.report.Alike report ∧
          harvest.report.toJson = report.toJson := by
  have hfound := Scanner.found_ascending hready.scanned
  have hasc := (e.job scanner).made_ascending cancelled hfound
  refine ⟨(e.job scanner).made cancelled (tasksOf scan.found),
    ((e.job scanner).harvest (.inOrder cancelled) scan).report, rfl, tasksOf_ascending hfound,
    ?_, hasc.imp challengeLe_of_place_lt, ?_⟩
  · rw [List.nodup_iff_pairwise_ne, List.pairwise_map]
    refine hasc.imp fun {a b} hlt heq => ?_
    obtain ⟨hpath, hstart, hstop⟩ := Prod.mk.inj heq |>.imp id Prod.mk.inj
    exact absurd (placeKey_eq_iff.mpr ⟨hpath, hstart, hstop⟩) (ne_of_lt hlt)
  · rintro workers wanted schedule log hwanted rfl
    have hprocess := process_withWorkers e scanner workers
    obtain ⟨log', hrun⟩ : ∃ log', (extractWith e root { o with workers } schedule).run log =
        (.ok ((e.job (scanner.withWorkers workers)).harvest schedule scan), log') := by
      refine extractWith_eq_ok_iff.mpr ⟨_, scan, hready.withWorkers hwanted, ?_, rfl⟩
      refine Job.fatal_tally fun task htask hcancelled failure => ?_
      rw [hprocess]
      exact hgrammar task htask hcancelled failure
    have halike : ((e.job (scanner.withWorkers workers)).harvest schedule scan).report.Alike
        ((e.job scanner).harvest (.inOrder schedule.cancelled) scan).report :=
      (e.job scanner).report_alike hfound rfl
    refine ⟨_, log', hrun, ?_, halike, ?_⟩
    · exact Job.challenges_harvest _ schedule hfound
    · exact halike.toJson_eq (Job.nodup_skipped _ schedule scan)
        (Job.nodup_skipped _ (.inOrder schedule.cancelled) scan)

/-! ## A mixed run -/

/-- Of the tasks of the mixed repository the third is given up. -/
def mixedCancelled (task : Task) : Bool :=
  task.path == "c.sample"

/-- What the workers of a run over the mixed repository share. -/
abbrev mixedJob (installed : Bool) (notes : List UInt8) : Job :=
  (mixedSurroundings installed notes).job (mixedScanner installed notes)

/-- Git leaves the question open whether a file is binary, or it is not asked. -/
theorem mixed_verdict (installed : Bool) (notes : List UInt8) (path : String) :
    BinaryContent.verdictOf (binaryAnswer (mixedJob installed notes).git path) = .ok none := by
  cases installed with
  | true => rfl
  | false => rfl

/-- The tasks that are not given up give challenges, skip a binary file, and give challenges. -/
theorem mixed_process (installed : Bool) (notes : List UInt8) :
    ∃ first second : List Challenge, ∃ messages messages',
      (mixedJob installed notes).process ⟨0, "a.sample", sampleLanguage⟩ =
        .ok ⟨.challenges 3 first, 1, messages⟩ ∧
      (mixedJob installed notes).process ⟨1, "b.sample", sampleLanguage⟩ = .ok (.skip .binary) ∧
      (mixedJob installed notes).process ⟨3, "d.sample", sampleLanguage⟩ =
        .ok ⟨.challenges 3 second, 1, messages'⟩ ∧
      (first ++ second).map (fun c => (c.filePath, c.startByte, c.endByte)) =
        [("a.sample", 0, 30), ("a.sample", 8, 22), ("d.sample", 0, 30), ("d.sample", 8, 22)] := by
  have hverdict := mixed_verdict installed notes
  obtain ⟨first, messages, hfirst, hplaces⟩ :=
    mixed_processed notes (hverdict "a.sample") (by decide)
  obtain ⟨second, messages', hsecond, hplaces'⟩ :=
    mixed_processed notes (hverdict "d.sample") (by decide)
  refine ⟨first, second, messages, messages', hfirst, mixed_skipped notes (hverdict _), hsecond, ?_⟩
  rw [List.map_append, hplaces, hplaces']
  rfl

theorem mixed_tasks : tasksOf mixedFound = [⟨0, "a.sample", sampleLanguage⟩,
    ⟨1, "b.sample", sampleLanguage⟩, ⟨2, "c.sample", sampleLanguage⟩,
    ⟨3, "d.sample", sampleLanguage⟩] := rfl

/-- No grammar fails on these tasks. -/
theorem mixed_grammar (installed : Bool) (notes : List UInt8) :
    ∀ task ∈ tasksOf mixedFound, mixedCancelled task = false →
      ∀ failure, (mixedJob installed notes).process task ≠ .error (.grammar failure) := by
  obtain ⟨first, second, messages, messages', hfirst, hskipped, hsecond, -⟩ :=
    mixed_process installed notes
  intro task htask hcancelled failure hfailure
  simp only [mixed_tasks, List.mem_cons, List.not_mem_nil, or_false] at htask
  rcases htask with rfl | rfl | rfl | rfl
  · cases hfirst.symm.trans hfailure
  · cases hskipped.symm.trans hfailure
  · cases hcancelled
  · cases hsecond.symm.trans hfailure

/-- Two files have two challenges each. -/
theorem mixed_made (installed : Bool) (notes : List UInt8) :
    ((mixedJob installed notes).made mixedCancelled (tasksOf mixedFound)).map
      (fun c => (c.filePath, c.startByte, c.endByte)) =
        [("a.sample", 0, 30), ("a.sample", 8, 22), ("d.sample", 0, 30), ("d.sample", 8, 22)] := by
  obtain ⟨first, second, messages, messages', hfirst, hskipped, hsecond, hplaces⟩ :=
    mixed_process installed notes
  rw [Job.made, mixed_tasks]
  simp only [List.flatMap_cons, List.flatMap_nil, List.append_nil, hfirst, hskipped, hsecond]
  exact hplaces

/-- The run over the mixed repository returns four challenges of two files on every schedule that
gives up the third task. -/
theorem extractWith_independent_of_schedule_sample : ∃ challenges report,
    challenges.map (fun c => (c.filePath, c.startByte, c.endByte)) =
      [("a.sample", 0, 30), ("a.sample", 8, 22), ("d.sample", 0, 30), ("d.sample", 8, 22)] ∧
    ∀ (workers : Option Int) (wanted : Int) (schedule : Schedule) (log : List Log.Message),
      wantedWorkers (mixedSurroundings true []) { sampleOptions ["x.*"] with workers } =
        .ok wanted →
      schedule.cancelled = mixedCancelled →
      ∃ harvest log',
        (extractWith (mixedSurroundings true []) "/r" { sampleOptions ["x.*"] with workers }
          schedule).run log = (.ok harvest, log') ∧
        harvest.challenges = challenges ∧ harvest.report.Alike report ∧
        harvest.report.toJson = report.toJson := by
  obtain ⟨scan, hscan, hfound, -⟩ := mixed_run
  have hgrammar := mixed_grammar true []
  rw [← hfound] at hgrammar
  obtain ⟨challenges, report, hchallenges, -, -, -, hrun⟩ :=
    extractWith_independent_of_schedule (mixed_ready hscan hfound) hgrammar
  refine ⟨challenges, report, ?_, hrun⟩
  rw [hchallenges, hfound]
  exact mixed_made true []

end CodeChallenges.Extraction

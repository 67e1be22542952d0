import CodeChallenges.Extraction.Run
import CodeChallenges.Proofs.Report
import Mathlib.Algebra.BigOperators.Group.List.Basic
import Mathlib.Algebra.Ring.Int.Defs
/-!
# What results amount to

A tally takes in one result after another.  What it has taken in shows only in sums over the
results, in which the order is lost, and in the list of challenges, where it is not: results that
arrive in another order give the same counters, and the same challenges in another order
(`Tally.Adds.alike_of_perm`).
-/

namespace CodeChallenges.Extraction

/-! ## What one result adds -/

namespace Ending

/-- Whether the task was done. -/
def isDone : Ending → Bool
  | .done .. => true
  | _ => false

/-- Whether the task was cancelled. -/
def isCancelled : Ending → Bool
  | .cancelled => true
  | _ => false

theorem isCancelled_iff {ending : Ending} : ending.isCancelled = true ↔ ending = .cancelled := by
  cases ending with
  | cancelled => exact iff_of_true rfl rfl
  | done count dropped made | skipped reason | fatal failure =>
      exact iff_of_false Bool.false_ne_true (fun h => by cases h)

/-- Whether the file of the task was skipped for a reason with the given word. -/
def isSkippedAs (tag : String) : Ending → Bool
  | .skipped reason => tag == reason.tag
  | _ => false

/-- Whether the file of the task was skipped. -/
def isSkipped : Ending → Bool
  | .skipped _ => true
  | _ => false

/-- The number of candidates of a task that was done. -/
def candidates : Ending → Int
  | .done count _ _ => count
  | _ => 0

/-- The challenges of a task that was done. -/
def challenges : Ending → List Challenge
  | .done _ _ made => made
  | _ => []

/-- The number of candidates that gave no challenge, of a task that was done. -/
def dropped : Ending → Int
  | .done _ count _ => count
  | _ => 0

/-- The failure of a task that ended the run. -/
def fatal? : Ending → Option Grammar.Failure
  | .fatal failure => some failure
  | _ => none

end Ending

/-- A count that may not have begun, after `n` more. -/
def addCount (n : Nat) (count : Option Int) : Option Int :=
  if n = 0 then count else some (count.getD 0 + n)

theorem addCount_addCount (m n : Nat) (count : Option Int) :
    addCount n (addCount m count) = addCount (m + n) count := by
  unfold addCount
  by_cases hm : m = 0
  · rw [if_pos hm, hm, Nat.zero_add]
  · rw [if_neg hm, if_neg (by omega : ¬ m + n = 0)]
    by_cases hn : n = 0
    · rw [if_pos hn, hn, Nat.add_zero]
    · rw [if_neg hn, Option.getD_some, Int.natCast_add, Int.add_assoc]

/-! ## What many results add -/

namespace Tally

/-- One tally comes from another by adding results. -/
structure Adds (t : Tally) (results : List Result) (u : Tally) : Prop where
  filesScanned_eq : u.report.filesScanned = t.report.filesScanned
  unsupportedFiles_eq : u.report.unsupportedFiles = t.report.unsupportedFiles
  excludedFiles_eq : u.report.excludedFiles = t.report.excludedFiles
  challengeCount_eq : u.report.challenges = t.report.challenges
  filesProcessed_eq :
    u.report.filesProcessed = t.report.filesProcessed + results.countP (·.ending.isDone)
  candidateChunks_eq :
    u.report.candidateChunks = t.report.candidateChunks + (results.map (·.ending.candidates)).sum
  droppedChunks_eq :
    u.report.droppedChunks = t.report.droppedChunks + (results.map (·.ending.dropped)).sum
  cancelled_eq :
    u.report.cancelled = (t.report.cancelled || results.any (·.ending.isCancelled))
  skipped_eq : ∀ tag, u.report.skipped.lookup tag =
    addCount (results.countP (·.ending.isSkippedAs tag)) (t.report.skipped.lookup tag)
  skippedTotal_eq : u.report.skippedTotal =
    t.report.skippedTotal + results.countP (·.ending.isSkipped)
  challenges_eq : u.challenges = t.challenges ++ results.flatMap (·.ending.challenges)
  fatal_eq : u.fatal = t.fatal.or (results.findSome? (·.ending.fatal?))

/-- Adding no results changes nothing. -/
theorem Adds.refl (t : Tally) : t.Adds [] t := by
  constructor
  all_goals simp [addCount]

/-- Results that are added after others are added with them. -/
theorem Adds.trans {t u v : Tally} {results more : List Result} (h : t.Adds results u)
    (h' : u.Adds more v) : t.Adds (results ++ more) v := by
  constructor
  · rw [h'.filesScanned_eq, h.filesScanned_eq]
  · rw [h'.unsupportedFiles_eq, h.unsupportedFiles_eq]
  · rw [h'.excludedFiles_eq, h.excludedFiles_eq]
  · rw [h'.challengeCount_eq, h.challengeCount_eq]
  · rw [h'.filesProcessed_eq, h.filesProcessed_eq, List.countP_append, Int.natCast_add,
      Int.add_assoc]
  · rw [h'.candidateChunks_eq, h.candidateChunks_eq, List.map_append, List.sum_append,
      Int.add_assoc]
  · rw [h'.droppedChunks_eq, h.droppedChunks_eq, List.map_append, List.sum_append, Int.add_assoc]
  · rw [h'.cancelled_eq, h.cancelled_eq, List.any_append, Bool.or_assoc]
  · intro tag
    rw [h'.skipped_eq, h.skipped_eq, addCount_addCount, List.countP_append]
  · rw [h'.skippedTotal_eq, h.skippedTotal_eq, List.countP_append, Int.natCast_add, Int.add_assoc]
  · rw [h'.challenges_eq, h.challenges_eq, List.flatMap_append, List.append_assoc]
  · rw [h'.fatal_eq, h.fatal_eq, List.findSome?_append, Option.or_assoc]

/-- What one result adds. -/
theorem adds_add (t : Tally) (result : Result) : t.Adds [result] (t.add result) := by
  obtain ⟨index, path, ending⟩ := result
  cases ending with
  | done count dropped made =>
      constructor
      all_goals simp [Tally.add, addCount, Ending.isDone, Ending.isCancelled, Ending.isSkippedAs,
        Ending.isSkipped, Ending.candidates, Ending.challenges, Ending.dropped, Ending.fatal?,
        Report.skippedTotal]
  | skipped reason =>
      constructor
      case skipped_eq =>
        intro tag
        show (Report.countOne reason.tag t.report.skipped).lookup tag = _
        rw [Report.lookup_countOne, List.countP_singleton]
        by_cases h : tag = reason.tag
        · simp [addCount, Ending.isSkippedAs, h]
        · simp [addCount, Ending.isSkippedAs, h]
      case skippedTotal_eq => exact Report.skippedTotal_skip t.report reason.tag
      all_goals simp [Tally.add, Report.skip, Ending.isDone, Ending.isCancelled,
        Ending.candidates, Ending.challenges, Ending.dropped, Ending.fatal?]
  | cancelled =>
      constructor
      all_goals simp [Tally.add, addCount, Ending.isDone, Ending.isCancelled, Ending.isSkippedAs,
        Ending.isSkipped, Ending.candidates, Ending.challenges, Ending.dropped, Ending.fatal?,
        Report.skippedTotal]
  | fatal failure =>
      constructor
      case fatal_eq => cases hfatal : t.fatal <;> simp [Tally.add, Ending.fatal?, hfatal]
      all_goals simp [Tally.add, addCount, Ending.isDone, Ending.isCancelled, Ending.isSkippedAs,
        Ending.isSkipped, Ending.candidates, Ending.challenges, Ending.dropped]

/-- What results add one after another. -/
theorem adds_addAll (t : Tally) (results : List Result) : t.Adds results (t.addAll results) := by
  induction results generalizing t with
  | nil => exact .refl t
  | cons result results ih => exact (adds_add t result).trans (ih (t.add result))

/-- **Results in another order** add the same to every counter, and the same challenges in another
order. -/
theorem Adds.alike_of_perm {t u u' : Tally} {results results' : List Result}
    (h : t.Adds results u) (h' : t.Adds results' u') (hperm : results.Perm results') :
    u.report.Alike u'.report ∧ u.challenges.Perm u'.challenges := by
  refine ⟨⟨?_, ?_, ?_, ?_, ?_, ?_, ?_, ?_, fun tag => ?_⟩, ?_⟩
  · rw [h.filesScanned_eq, h'.filesScanned_eq]
  · rw [h.filesProcessed_eq, h'.filesProcessed_eq, hperm.countP_eq]
  · rw [h.unsupportedFiles_eq, h'.unsupportedFiles_eq]
  · rw [h.excludedFiles_eq, h'.excludedFiles_eq]
  · rw [h.candidateChunks_eq, h'.candidateChunks_eq, (hperm.map _).sum_eq]
  · rw [h.droppedChunks_eq, h'.droppedChunks_eq, (hperm.map _).sum_eq]
  · rw [h.challengeCount_eq, h'.challengeCount_eq]
  · rw [h.cancelled_eq, h'.cancelled_eq, Bool.eq_iff_iff]
    simp only [Bool.or_eq_true, List.any_eq_true, hperm.mem_iff]
  · rw [h.skipped_eq, h'.skipped_eq, hperm.countP_eq]
  · rw [h.challenges_eq, h'.challenges_eq]
    exact (hperm.flatMap_right _).append_left t.challenges

/-- The names of counts stay distinct. -/
theorem nodup_skipped_addAll {t : Tally} (h : (t.report.skipped.map Prod.fst).Nodup)
    (results : List Result) : ((t.addAll results).report.skipped.map Prod.fst).Nodup := by
  induction results generalizing t with
  | nil => exact h
  | cons result results ih =>
      refine ih (t := t.add result) ?_
      unfold Tally.add
      split
      case h_3 => exact Report.nodup_names_countOne _ h
      all_goals exact h

end Tally

end CodeChallenges.Extraction

import CodeChallenges.Extraction.Run
import CodeChallenges.Proofs.Extraction.File
/-!
# The order of challenges

The challenges of a file stand in strictly ascending order of their places, since the selected
chunks do.  Files are chosen in strictly ascending order of their paths, so the challenges of all
files, one file after the other, are in strictly ascending order too (`ascending_flatMap`).  The
sort at the end of a run compares places first.  No two challenges share a place, so the sort never
comes to the rank, and it puts the challenges in this order however they come to it
(`mergeSort_eq_of_ascending`).
-/

namespace CodeChallenges.Extraction

open Repository (Snapshot Place GitService)

/-! ## The sort at the end -/

/-- The key of a challenge. -/
def challengeKey (r : Registry) (c : Challenge) : SortKey :=
  sortKey c.filePath c.startByte c.endByte (challengeRank r c)

theorem challengeLe_iff {r : Registry} {a b : Challenge} :
    challengeLe r a b = true ↔ challengeKey r a ≤ challengeKey r b := by
  simp only [challengeLe, challengeKey, sortKey_le_iff, Bool.or_eq_true, Bool.and_eq_true,
    decide_eq_true_eq, beq_iff_eq]

/-- Of two challenges in the order of their places, the sort puts the first one first. -/
theorem challengeLe_of_place_lt {r : Registry} {a b : Challenge} (h : a.place < b.place) :
    challengeLe r a b = true ∧ challengeLe r b a = false := by
  have hlt : challengeKey r a < challengeKey r b := sortKey_lt_of_placeKey_lt _ _ h
  refine ⟨challengeLe_iff.mpr hlt.le, ?_⟩
  rw [Bool.eq_false_iff, ne_eq, challengeLe_iff]
  exact not_le_of_gt hlt

/-- Challenges in ascending order of their places are what they are sorted to from any order. -/
theorem mergeSort_eq_of_ascending {r : Registry} {arrived ascending : List Challenge}
    (hasc : ascending.Pairwise (fun a b => a.place < b.place)) (hperm : arrived.Perm ascending) :
    arrived.mergeSort (challengeLe r) = ascending :=
  mergeSort_eq_of_perm (challengeKey r) (fun _ _ => challengeLe_iff)
    (hasc.imp fun h => sortKey_lt_of_placeKey_lt _ _ h) hperm

/-! ## The challenges of a file -/

/-- **The challenges of a file** have its path, and stand in strictly ascending order of their
places. -/
theorem madeIn_processFile_ascending (t : Toolkit) (r : Registry) (o : Options)
    (snapshot : Snapshot) (root : Place) (git : Option GitService) (path : String) (l : Language) :
    (madeIn (processFile t r o snapshot root git path l)).Pairwise
        (fun a b => a.place < b.place) ∧
      ∀ c ∈ madeIn (processFile t r o snapshot root git path l), c.filePath = path := by
  cases hmade : madeIn (processFile t r o snapshot root git path l) with
  | nil => exact ⟨.nil, List.forall_mem_nil _⟩
  | cons c made =>
      have hmem : c ∈ madeIn (processFile t r o snapshot root git path l) := by
        rw [hmade]
        exact List.mem_cons_self
      obtain ⟨count, dropped, messages, hok⟩ := eq_ok_of_mem_madeIn hmem
      obtain ⟨content, hread⟩ := exists_read_of_processFile hok
      obtain ⟨-, patterns, -, candidates, hfrom, hfrom'⟩ := processFile_eq_ok hok hread
      rw [hmade] at hfrom'
      exact hfrom'.ascending fun chunk hchunk => (hfrom chunk hchunk).path_eq

/-! ## The challenges of many files -/

theorem length_tasksOf (found : List (String × Language)) :
    (tasksOf found).length = found.length := by
  rw [tasksOf, List.length_map, List.length_zipIdx]

/-- Tasks of files in ascending order have their paths in ascending order. -/
theorem tasksOf_ascending {found : List (String × Language)}
    (h : Repository.Scanner.Ascending found) :
    (tasksOf found).Pairwise (fun a b => a.path < b.path) := by
  rw [tasksOf, List.pairwise_map]
  have hfst : (found.zipIdx.map Prod.fst).Pairwise (fun a b => a.1 < b.1) := by
    rw [List.zipIdx_map_fst]
    exact h
  rw [List.pairwise_map] at hfst
  exact hfst

/-- Challenges of tasks with ascending paths ascend if those of each task do. -/
theorem ascending_flatMap {tasks : List Task} {made : Task → List Challenge}
    (htasks : tasks.Pairwise (fun a b => a.path < b.path))
    (hmade : ∀ task ∈ tasks, (made task).Pairwise (fun a b => a.place < b.place) ∧
      ∀ c ∈ made task, c.filePath = task.path) :
    (tasks.flatMap made).Pairwise (fun a b => a.place < b.place) := by
  rw [List.pairwise_flatMap]
  refine ⟨fun task htask => (hmade task htask).1, ?_⟩
  refine htasks.imp_of_mem fun {s t} hs ht hst a ha b hb => ?_
  refine placeKey_lt_iff.mpr (.inl ?_)
  rw [(hmade s hs).2 a ha, (hmade t ht).2 b hb]
  exact hst

/-- The challenges of the tasks that are not cancelled, one task after the other. -/
def Job.made (j : Job) (cancelled : Task → Bool) (tasks : List Task) : List Challenge :=
  tasks.flatMap fun task => if cancelled task then [] else madeIn (j.process task)

theorem Job.made_ascending (j : Job) (cancelled : Task → Bool) {found : List (String × Language)}
    (h : Repository.Scanner.Ascending found) :
    (j.made cancelled (tasksOf found)).Pairwise (fun a b => a.place < b.place) := by
  refine ascending_flatMap (tasksOf_ascending h) fun task _ => ?_
  split
  · exact ⟨.nil, List.forall_mem_nil _⟩
  · exact madeIn_processFile_ascending ..

end CodeChallenges.Extraction

import CodeChallenges.Proofs.Sorting
import CodeChallenges.Report
import Mathlib.Data.List.Nodup
/-!
# Counts

Skipped files are counted by reason, in a list that names each reason once.  The order in which the
reasons were met shows in the list, but neither in a count nor in the record of a report: reports
with the same counts are written alike (`Alike.toJson_eq`).
-/

namespace CodeChallenges.Report

/-! ## Counting names -/

/-- Counting a name adds one to its count and leaves all others as they are. -/
theorem lookup_countOne (name key : String) (counts : List (String × Int)) :
    (countOne name counts).lookup key =
      if key = name then some ((counts.lookup key).getD 0 + 1) else counts.lookup key := by
  induction counts with
  | nil =>
      rw [countOne, List.lookup_cons]
      by_cases h : key = name
      · rw [if_pos h, beq_iff_eq.mpr h]
        rfl
      · rw [if_neg h, beq_eq_false_iff_ne.mpr h]
  | cons count rest ih =>
      obtain ⟨other, n⟩ := count
      rw [countOne, List.lookup_cons]
      by_cases hother : other = name
      · rw [if_pos (beq_iff_eq.mpr hother), List.lookup_cons, hother]
        by_cases h : key = name
        · rw [if_pos h, beq_iff_eq.mpr h]
          rfl
        · rw [if_neg h, beq_eq_false_iff_ne.mpr h]
      · rw [if_neg (mt beq_iff_eq.mp hother), List.lookup_cons, ih]
        by_cases hkey : key = other
        · subst hkey
          rw [beq_self_eq_true, if_neg hother, if_neg hother]
        · rw [beq_eq_false_iff_ne.mpr hkey]

/-- Counting a name adds it to the names if it is new. -/
theorem names_countOne (name : String) (counts : List (String × Int)) :
    (countOne name counts).map Prod.fst =
      if name ∈ counts.map Prod.fst then counts.map Prod.fst
      else counts.map Prod.fst ++ [name] := by
  induction counts with
  | nil => rfl
  | cons count rest ih =>
      obtain ⟨other, n⟩ := count
      rw [countOne, List.map_cons]
      by_cases hother : other = name
      · rw [if_pos (beq_iff_eq.mpr hother), if_pos (List.mem_cons.mpr (.inl hother.symm))]
        rfl
      · rw [if_neg (mt beq_iff_eq.mp hother), List.map_cons, ih]
        have hiff : name ∈ other :: rest.map Prod.fst ↔ name ∈ rest.map Prod.fst := by
          rw [List.mem_cons, or_iff_right (Ne.symm hother)]
        by_cases hmem : name ∈ rest.map Prod.fst
        · rw [if_pos hmem, if_pos (hiff.mpr hmem)]
        · rw [if_neg hmem, if_neg (mt hiff.mp hmem), List.cons_append]

theorem nodup_names_countOne (name : String) {counts : List (String × Int)}
    (h : (counts.map Prod.fst).Nodup) : ((countOne name counts).map Prod.fst).Nodup := by
  rw [names_countOne]
  split
  · exact h
  · rename_i hnew
    exact List.nodup_append.mpr ⟨h, List.nodup_singleton name, fun a ha b hb hab =>
      hnew (List.mem_singleton.mp hb ▸ hab ▸ ha)⟩

/-- The sum of counts. -/
def total (counts : List (String × Int)) : Int :=
  counts.foldr (fun count sum => count.2 + sum) 0

theorem total_cons (count : String × Int) (counts : List (String × Int)) :
    total (count :: counts) = count.2 + total counts := rfl

/-- Counting a name adds one to the sum. -/
theorem total_countOne (name : String) (counts : List (String × Int)) :
    total (countOne name counts) = total counts + 1 := by
  induction counts with
  | nil => rfl
  | cons count rest ih =>
      rw [countOne]
      split
      · simp only [total_cons]
        omega
      · simp only [total_cons, ih]
        omega

theorem total_perm {counts counts' : List (String × Int)} (h : counts.Perm counts') :
    total counts = total counts' := by
  induction h with
  | nil => rfl
  | cons count _ ih => rw [total_cons, total_cons, ih]
  | swap count count' rest =>
      simp only [total_cons]
      omega
  | trans _ _ ih ih' => exact ih.trans ih'

/-- A skipped file adds one to the number of skipped files. -/
theorem skippedTotal_skip (r : Report) (reason : String) :
    (r.skip reason).skippedTotal = r.skippedTotal + 1 :=
  total_countOne reason r.skipped

/-! ## Lists with the same counts -/

/-- If each name has one count, the members are what is looked up. -/
theorem mem_iff_lookup {counts : List (String × Int)} (h : (counts.map Prod.fst).Nodup)
    {name : String} {n : Int} : (name, n) ∈ counts ↔ counts.lookup name = some n := by
  induction counts with
  | nil => simp only [List.not_mem_nil, List.lookup_nil, reduceCtorEq]
  | cons count rest ih =>
      obtain ⟨other, m⟩ := count
      obtain ⟨hnew, hrest⟩ := List.nodup_cons.mp h
      rw [List.mem_cons, List.lookup_cons, ih hrest]
      by_cases hname : name = other
      · subst hname
        have hnone : rest.lookup name ≠ some n := fun hsome =>
          hnew (List.mem_map.mpr ⟨(name, n), (ih hrest).mpr hsome, rfl⟩)
        rw [or_iff_left hnone, beq_self_eq_true, Prod.mk.injEq, eq_self, true_and,
          Option.some.injEq, eq_comm]
      · have hne : (name, n) ≠ (other, m) := fun heq => hname (Prod.mk.inj heq).1
        rw [or_iff_right hne, beq_eq_false_iff_ne.mpr hname]

/-- Counts that are looked up alike are the same counts in another order. -/
theorem perm_of_lookup {counts counts' : List (String × Int)} (h : (counts.map Prod.fst).Nodup)
    (h' : (counts'.map Prod.fst).Nodup) (heq : ∀ name, counts.lookup name = counts'.lookup name) :
    counts.Perm counts' := by
  refine (List.perm_ext_iff_of_nodup (h.of_map Prod.fst) (h'.of_map Prod.fst)).mpr fun count => ?_
  obtain ⟨name, n⟩ := count
  rw [mem_iff_lookup h, mem_iff_lookup h', heq]

/-- Sorted counts with distinct names ascend in their names. -/
theorem pairwise_sortedByKey {counts : List (String × Int)} (h : (counts.map Prod.fst).Nodup) :
    (sortedByKey counts).Pairwise (fun a b => a.1 < b.1) := by
  have hle : (sortedByKey counts).Pairwise (fun a b => a.1 ≤ b.1) :=
    pairwise_mergeSort_key Prod.fst (fun _ _ => decide_eq_true_iff) counts
  have hne : (sortedByKey counts).Pairwise (fun a b => a.1 ≠ b.1) := by
    refine List.pairwise_map.mp (?_ : ((sortedByKey counts).map Prod.fst).Nodup)
    exact ((List.mergeSort_perm _ _).map Prod.fst).nodup_iff.mpr h
  exact hle.imp₂ (fun _ _ hab hab' => lt_of_le_of_ne hab hab') hne

/-- Counts with distinct names are written the same way in any order. -/
theorem countsJson_eq_of_perm {counts counts' : List (String × Int)}
    (h : (counts.map Prod.fst).Nodup) (hperm : counts.Perm counts') :
    countsJson counts = countsJson counts' := by
  have hsorted := pairwise_sortedByKey ((hperm.map Prod.fst).nodup_iff.mp h)
  have heq : sortedByKey counts = sortedByKey counts' :=
    mergeSort_eq_of_perm Prod.fst (fun _ _ => decide_eq_true_iff) hsorted
      (hperm.trans (List.mergeSort_perm _ _).symm)
  rw [countsJson, countsJson, heq]

/-! ## Reports with the same counters -/

/-- Two reports have the same counters. -/
structure Alike (a b : Report) : Prop where
  filesScanned_eq : a.filesScanned = b.filesScanned
  filesProcessed_eq : a.filesProcessed = b.filesProcessed
  unsupportedFiles_eq : a.unsupportedFiles = b.unsupportedFiles
  excludedFiles_eq : a.excludedFiles = b.excludedFiles
  candidateChunks_eq : a.candidateChunks = b.candidateChunks
  droppedChunks_eq : a.droppedChunks = b.droppedChunks
  challenges_eq : a.challenges = b.challenges
  cancelled_eq : a.cancelled = b.cancelled
  skipped_eq : ∀ reason, a.skipped.lookup reason = b.skipped.lookup reason

/-- Reports with the same counters are written alike. -/
theorem Alike.toJson_eq {a b : Report} (h : a.Alike b) (ha : (a.skipped.map Prod.fst).Nodup)
    (hb : (b.skipped.map Prod.fst).Nodup) : a.toJson = b.toJson := by
  have hskipped : countsJson a.skipped = countsJson b.skipped :=
    countsJson_eq_of_perm ha (perm_of_lookup ha hb h.skipped_eq)
  rw [toJson, toJson, h.filesScanned_eq, h.filesProcessed_eq, h.unsupportedFiles_eq,
    h.excludedFiles_eq, h.candidateChunks_eq, h.droppedChunks_eq, h.challenges_eq, h.cancelled_eq,
    hskipped]

end CodeChallenges.Report

import CodeChallenges.Names
import CodeChallenges.Proofs.Sorting
/-!
# Sets of names

Sorted names hold the same names as before (`mem_sortedNames`), in strictly ascending order
(`sortedNames_ascending`); a set of names has one such list.
-/

namespace CodeChallenges

/-! ## Repetitions -/

theorem mem_eraseReps_loop {α : Type} [BEq α] [LawfulBEq α] {items done : List α} {a b : α} :
    b ∈ List.eraseRepsBy.loop (· == ·) a items done ↔ b ∈ done ∨ b = a ∨ b ∈ items := by
  induction items generalizing a done with
  | nil =>
      rw [List.eraseRepsBy.loop, List.mem_reverse, List.mem_cons]
      simp only [List.not_mem_nil, or_false]
      exact or_comm
  | cons c items ih =>
      rw [List.eraseRepsBy.loop]
      split
      · rename_i h
        rw [ih, ← beq_iff_eq.mp h, List.mem_cons]
        simp only [or_self_left]
      · rw [ih, List.mem_cons, List.mem_cons, or_assoc]
        exact or_left_comm

theorem mem_eraseReps {α : Type} [BEq α] [LawfulBEq α] {items : List α} {b : α} :
    b ∈ items.eraseReps ↔ b ∈ items := by
  cases items with
  | nil => exact Iff.rfl
  | cons a items =>
      rw [List.eraseReps, List.eraseRepsBy, mem_eraseReps_loop, List.mem_cons]
      simp only [List.not_mem_nil, false_or]

/-- Ascending items without neighbours alike ascend strictly. -/
theorem eraseReps_loop_ascending {items done : List String} {a : String}
    (hitems : (a :: items).Pairwise (· ≤ ·)) (hdone : (a :: done).Pairwise (· > ·)) :
    (List.eraseRepsBy.loop (· == ·) a items done).Pairwise (· < ·) := by
  induction items generalizing a done with
  | nil =>
      rw [List.eraseRepsBy.loop, List.pairwise_reverse]
      exact hdone
  | cons c items ih =>
      rw [List.eraseRepsBy.loop]
      obtain ⟨hle, htail⟩ := List.pairwise_cons.mp hitems
      split
      · exact ih (List.pairwise_cons.mpr ⟨fun b hb => hle b (List.mem_cons_of_mem c hb),
          (List.pairwise_cons.mp htail).2⟩) hdone
      · rename_i hne
        have hac : a < c := lt_of_le_of_ne (hle c List.mem_cons_self) (fun h => by simp [h] at hne)
        refine ih htail (List.pairwise_cons.mpr ⟨fun b hb => ?_, hdone⟩)
        rcases List.mem_cons.mp hb with rfl | hb
        · exact hac
        · exact lt_trans ((List.pairwise_cons.mp hdone).1 b hb) hac

/-! ## Sorted names -/

theorem mem_sortedNames {names : List String} {name : String} :
    name ∈ sortedNames names ↔ name ∈ names := by
  rw [sortedNames, mem_eraseReps, List.mem_mergeSort]

/-- Sorted names are in strictly ascending order. -/
theorem sortedNames_ascending (names : List String) : (sortedNames names).Pairwise (· < ·) := by
  have hsorted : (names.mergeSort fun a b => decide (a ≤ b)).Pairwise (· ≤ ·) :=
    pairwise_mergeSort_key id (fun a b => decide_eq_true_iff) names
  rw [sortedNames]
  cases hs : names.mergeSort fun a b => decide (a ≤ b) with
  | nil => exact List.Pairwise.nil
  | cons a items =>
      rw [hs] at hsorted
      exact eraseReps_loop_ascending hsorted (List.pairwise_singleton _ _)

end CodeChallenges

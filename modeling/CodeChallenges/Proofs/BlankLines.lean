import CodeChallenges.BlankLines
import Mathlib.Algebra.GroupWithZero.Nat
import Mathlib.Data.List.GetD
/-!
# Where characters go when blank lines shrink

The map of a collapsed text has a place for each old character and for the end
(`length_mapping_collapse`).  Within a run the new places ascend and stay between the places of its
two ends; by induction on the runs they ascend throughout and stay within the new text, so that an
old range becomes a range again (`mapping_collapse_le`).
-/

namespace CodeChallenges.BlankLines

/-! ## Lines and runs -/

theorem flatten_addChar (c : Char) (lines : List (List Char)) :
    (addChar c lines).flatten = c :: lines.flatten := by
  unfold addChar
  split
  · rename_i h
    rw [beq_iff_eq] at h
    rw [h, List.flatten_cons, List.singleton_append]
  · cases lines with
    | nil => rfl
    | cons line rest => rfl

/-- The lines of a text make up the text. -/
theorem flatten_linesOf (text : List Char) : (linesOf text).flatten = text := by
  induction text with
  | nil => rfl
  | cons c text ih =>
      show (addChar c (linesOf text)).flatten = c :: text
      rw [flatten_addChar, ih]

theorem sum_oldLength_addLine (line : List Char) (runs : List Run) :
    ((addLine line runs).map Run.oldLength).sum = line.length + (runs.map Run.oldLength).sum := by
  unfold addLine
  split
  · split
    · simp only [List.map_cons, List.sum_cons, Run.oldLength, List.flatten_cons, List.length_append,
        Nat.add_assoc]
    · simp only [List.map_cons, List.sum_cons, Run.oldLength, List.flatten_cons, List.flatten_nil,
        List.append_nil]
  · simp only [List.map_cons, List.sum_cons, Run.oldLength]

/-- The runs of lines are as long as the lines. -/
theorem sum_oldLength_runsOf (lines : List (List Char)) :
    ((runsOf lines).map Run.oldLength).sum = lines.flatten.length := by
  induction lines with
  | nil => rfl
  | cons line lines ih =>
      show ((addLine line (runsOf lines)).map Run.oldLength).sum = (line :: lines).flatten.length
      rw [sum_oldLength_addLine, ih, List.flatten_cons, List.length_append]

/-! ## Places -/

theorem Run.length_positions (base : Nat) (run : Run) :
    (run.positions base).length = run.oldLength := by
  cases run with
  | blank lines => exact List.length_replicate
  | solid line => exact List.length_range'

/-- The new places of a run lie between the new places of its ends. -/
theorem Run.positions_within {maxRun : Int} {base p : Nat} {run : Run}
    (h : p ∈ run.positions base) : base ≤ p ∧ p ≤ base + (run.kept maxRun).length := by
  cases run with
  | blank lines =>
      have hp : p = base := List.eq_of_mem_replicate h
      omega
  | solid line =>
      have hp := List.mem_range'_1.mp h
      simp only [Run.kept]
      omega

theorem Run.positions_ascending (base : Nat) (run : Run) :
    (run.positions base).Pairwise (· ≤ ·) := by
  cases run with
  | blank lines => exact List.pairwise_replicate.mpr (.inr (Nat.le_refl base))
  | solid line => exact List.pairwise_le_range'

theorem length_positionsFrom (maxRun : Int) (base : Nat) (runs : List Run) :
    (positionsFrom maxRun base runs).length = (runs.map Run.oldLength).sum + 1 := by
  induction runs generalizing base with
  | nil => rfl
  | cons run runs ih =>
      rw [positionsFrom, List.length_append, ih, Run.length_positions, List.map_cons, List.sum_cons,
        Nat.add_assoc]

/-- All new places lie between the place of the first run and the end of the new text. -/
theorem positionsFrom_within {maxRun : Int} {base p : Nat} {runs : List Run}
    (h : p ∈ positionsFrom maxRun base runs) :
    base ≤ p ∧ p ≤ base + (runs.flatMap (Run.kept maxRun)).length := by
  induction runs generalizing base with
  | nil =>
      rw [List.mem_singleton.mp h]
      exact ⟨Nat.le_refl base, Nat.le_add_right base _⟩
  | cons run runs ih =>
      rw [List.flatMap_cons, List.length_append]
      rcases List.mem_append.mp h with h | h
      · have : base ≤ p ∧ p ≤ base + (run.kept maxRun).length := Run.positions_within h
        omega
      · have := ih h
        omega

theorem positionsFrom_ascending (maxRun : Int) (base : Nat) (runs : List Run) :
    (positionsFrom maxRun base runs).Pairwise (· ≤ ·) := by
  induction runs generalizing base with
  | nil => exact List.pairwise_singleton _ _
  | cons run runs ih =>
      refine List.pairwise_append.mpr ⟨run.positions_ascending base, ih _, fun p hp q hq => ?_⟩
      exact Nat.le_trans (Run.positions_within hp).2 (positionsFrom_within hq).1

/-! ## The map of a collapsed text -/

/-- Each old character has a new place, and so has the end. -/
theorem length_mapping_collapse (text : List Char) (maxRun : Int) :
    (collapse text maxRun).mapping.length = text.length + 1 := by
  show (positionsFrom maxRun 0 (runsOf (linesOf text))).length = text.length + 1
  rw [length_positionsFrom, sum_oldLength_runsOf, flatten_linesOf]

/-- The map keeps the order of places, and leads into the new text. -/
theorem mapping_collapse_le {text : List Char} (maxRun : Int) {i j : Nat} (hij : i ≤ j)
    (hj : j ≤ text.length) :
    (collapse text maxRun).mapping.getD i 0 ≤ (collapse text maxRun).mapping.getD j 0 ∧
      (collapse text maxRun).mapping.getD j 0 ≤ (collapse text maxRun).text.length := by
  have hlen := length_mapping_collapse text maxRun
  have hi' : i < (collapse text maxRun).mapping.length := by omega
  have hj' : j < (collapse text maxRun).mapping.length := by omega
  rw [List.getD_eq_getElem _ 0 hi', List.getD_eq_getElem _ 0 hj']
  constructor
  · rcases Nat.lt_or_eq_of_le hij with hlt | rfl
    · exact List.pairwise_iff_getElem.mp (positionsFrom_ascending maxRun 0 _) i j hi' hj' hlt
    · exact Nat.le_refl _
  · have := (positionsFrom_within (List.getElem_mem hj')).2
    rwa [Nat.zero_add] at this

end CodeChallenges.BlankLines

/-!
Sets of names as ascending lists without repetition.  Texts are ordered by code points.
-/

namespace CodeChallenges

/-- The names in ascending order, each once. -/
def sortedNames (names : List String) : List String :=
  (names.mergeSort fun a b => decide (a ≤ b)).eraseReps

/-- Pairs in ascending order of their keys; pairs of one key keep their order. -/
def sortedByKey {α : Type} (pairs : List (String × α)) : List (String × α) :=
  pairs.mergeSort fun a b => decide (a.1 ≤ b.1)

end CodeChallenges

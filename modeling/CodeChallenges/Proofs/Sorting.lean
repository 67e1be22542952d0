import Mathlib.Data.List.Pairwise
import Mathlib.Data.List.Sort
import Mathlib.Data.Prod.Lex
import Mathlib.Data.String.Basic
/-!
# Sorting

Chunks and challenges are sorted by two tests that are written out separately.  Both tests compare
keys: first the place, which is a path, a start, and an end from the back, and then the rank.  What
a test by keys sorts, ascends in its keys (`pairwise_mergeSort_key`), and items with distinct keys
have just one order (`mergeSort_eq_of_perm`).

The merge sort of the library does not run in the kernel.  `computedSort` is the same sort in a form
that does, so that runs on fixed inputs can be checked by evaluation.
-/

namespace CodeChallenges

/-! ## Keys -/

/-- The place of a piece of a file, in order of path, start, and end from the back. -/
abbrev PlaceKey := String ×ₗ Int ×ₗ Int

/-- The key of a place. -/
def placeKey (path : String) (start stop : Int) : PlaceKey :=
  toLex (path, toLex (start, -stop))

/-- What chunks and challenges are ordered by: the place, and then the rank. -/
abbrev SortKey := PlaceKey ×ₗ Nat

/-- The key of a piece of a file with a rank. -/
def sortKey (path : String) (start stop : Int) (rank : Nat) : SortKey :=
  toLex (placeKey path start stop, rank)

/-- The order of places, written out. -/
theorem placeKey_lt_iff {p p' : String} {s s' e e' : Int} :
    placeKey p s e < placeKey p' s' e' ↔ p < p' ∨ p = p' ∧ (s < s' ∨ s = s' ∧ e' < e) := by
  simp only [placeKey, Prod.Lex.toLex_lt_toLex, Int.neg_lt_neg_iff]

/-- A key tells the place. -/
theorem placeKey_eq_iff {p p' : String} {s s' e e' : Int} :
    placeKey p s e = placeKey p' s' e' ↔ p = p' ∧ s = s' ∧ e = e' := by
  simp only [placeKey, EmbeddingLike.apply_eq_iff_eq, Prod.mk.injEq, Int.neg_inj]

/-- The order of keys, written out. -/
theorem sortKey_le_iff {p p' : String} {s s' e e' : Int} {k k' : Nat} :
    sortKey p s e k ≤ sortKey p' s' e' k' ↔
      p < p' ∨ p = p' ∧ (s < s' ∨ s = s' ∧ (e' < e ∨ e = e' ∧ k ≤ k')) := by
  simp only [sortKey, Prod.Lex.toLex_le_toLex, placeKey_lt_iff, placeKey_eq_iff]
  constructor
  · rintro ((h | ⟨rfl, h | ⟨rfl, h⟩⟩) | ⟨⟨rfl, rfl, rfl⟩, hk⟩)
    · exact .inl h
    · exact .inr ⟨rfl, .inl h⟩
    · exact .inr ⟨rfl, .inr ⟨rfl, .inl h⟩⟩
    · exact .inr ⟨rfl, .inr ⟨rfl, .inr ⟨rfl, hk⟩⟩⟩
  · rintro (h | ⟨rfl, h | ⟨rfl, h | ⟨rfl, hk⟩⟩⟩)
    · exact .inl (.inl h)
    · exact .inl (.inr ⟨rfl, .inl h⟩)
    · exact .inl (.inr ⟨rfl, .inr ⟨rfl, h⟩⟩)
    · exact .inr ⟨⟨rfl, rfl, rfl⟩, hk⟩

/-- Where places ascend, ranks do not matter. -/
theorem sortKey_lt_of_placeKey_lt {p p' : String} {s s' e e' : Int} (k k' : Nat)
    (h : placeKey p s e < placeKey p' s' e') : sortKey p s e k < sortKey p' s' e' k' :=
  Prod.Lex.toLex_lt_toLex.mpr (.inl h)

/-- Keys in order whose places differ have their places in order. -/
theorem placeKey_lt_of_sortKey_le {p p' : String} {s s' e e' : Int} {k k' : Nat}
    (h : sortKey p s e k ≤ sortKey p' s' e' k') (hne : placeKey p s e ≠ placeKey p' s' e') :
    placeKey p s e < placeKey p' s' e' :=
  (Prod.Lex.toLex_le_toLex.mp h).resolve_right fun heq => hne heq.1

/-! ## Order by keys -/

/-- Two items of a list are one item, or they are related one way or the other. -/
theorem eq_or_of_pairwise {α : Type} {R : α → α → Prop} {items : List α} (h : items.Pairwise R)
    {a b : α} (ha : a ∈ items) (hb : b ∈ items) : a = b ∨ R a b ∨ R b a := by
  by_cases hab : a = b
  · exact .inl hab
  · have hor : items.Pairwise (fun x y => R x y ∨ R y x) := h.imp Or.inl
    have : Std.Symm (fun x y => R x y ∨ R y x) := ⟨fun _ _ hxy => hxy.symm⟩
    exact .inr (hor.forall ha hb hab)

section ByKey

variable {α κ : Type} [LinearOrder κ] {le : α → α → Bool}

/-- A test that compares keys sorts by keys. -/
theorem pairwise_mergeSort_key (key : α → κ) (hle : ∀ a b, le a b = true ↔ key a ≤ key b)
    (items : List α) :
    (items.mergeSort le).Pairwise (fun a b => key a ≤ key b) := by
  have hsorted := List.pairwise_mergeSort
    (fun a b c hab hbc => (hle a c).mpr (le_trans ((hle a b).mp hab) ((hle b c).mp hbc)))
    (fun a b => by
      rw [Bool.or_eq_true, hle, hle]
      exact le_total (key a) (key b))
    items
  exact hsorted.imp fun {a b} h => (hle a b).mp h

/-- Items in strictly ascending order of their keys are what every rearrangement of them is sorted
to. -/
theorem mergeSort_eq_of_perm (key : α → κ) (hle : ∀ a b, le a b = true ↔ key a ≤ key b)
    {items sorted : List α} (hasc : sorted.Pairwise (fun a b => key a < key b))
    (hperm : items.Perm sorted) :
    items.mergeSort le = sorted := by
  have hkey : ∀ a b, a ∈ items.mergeSort le → b ∈ sorted → key a ≤ key b → key b ≤ key a →
      a = b := by
    intro a b ha hb hab hba
    rcases eq_or_of_pairwise hasc (hperm.mem_iff.mp (List.mem_mergeSort.mp ha)) hb with h | h | h
    · exact h
    · exact absurd hba (not_le_of_gt h)
    · exact absurd hab (not_le_of_gt h)
  exact ((List.mergeSort_perm items le).trans hperm).eq_of_pairwise hkey
    (pairwise_mergeSort_key key hle items) (hasc.imp le_of_lt)

/-- A list in strictly ascending order of keys is known by its members. -/
theorem eq_of_ascending (key : α → κ) {items items' : List α}
    (h : items.Pairwise (fun a b => key a < key b))
    (h' : items'.Pairwise (fun a b => key a < key b)) (hmem : ∀ a, a ∈ items ↔ a ∈ items') :
    items = items' := by
  have hne : ∀ {a b : α}, key a < key b → a ≠ b := fun hlt heq => absurd hlt (heq ▸ lt_irrefl _)
  have hperm : items.Perm items' := (List.perm_ext_iff_of_nodup (h.imp hne) (h'.imp hne)).mpr hmem
  exact hperm.eq_of_pairwise (fun a b _ _ hab hba => absurd hba (lt_asymm hab)) h h'

/-- In a list in strictly ascending order of keys, a member is the only one with its key. -/
theorem filter_eq_singleton (key : α → κ) {items : List α} {p : α → Bool}
    (h : items.Pairwise (fun a b => key a < key b)) {a : α} (ha : a ∈ items)
    (hp : ∀ b, p b = true ↔ key b = key a) : items.filter p = [a] := by
  refine eq_of_ascending key (h.filter p) (List.pairwise_singleton _ a) fun b => ?_
  rw [List.mem_filter, List.mem_singleton, hp]
  constructor
  · rintro ⟨hb, hkey⟩
    rcases eq_or_of_pairwise h hb ha with heq | hlt | hlt
    · exact heq
    · exact absurd hkey (ne_of_lt hlt)
    · exact absurd hkey (ne_of_gt hlt)
  · rintro rfl
    exact ⟨ha, rfl⟩

/-- Of two lists in strictly ascending order of keys, one whose members are all in the other is a
part of it, in the same order. -/
theorem sublist_of_ascending (key : α → κ) {items more : List α}
    (h : items.Pairwise (fun a b => key a < key b)) (h' : more.Pairwise (fun a b => key a < key b))
    (hsub : items ⊆ more) : items.Sublist more := by
  have hanti : Std.Antisymm (fun a b : α => key a < key b) :=
    ⟨fun _ _ hab hba => absurd hba (lt_asymm hab)⟩
  have hnodup : items.Nodup := by
    refine h.imp ?_
    intro a b hlt heq
    exact absurd (congrArg key heq) (ne_of_lt hlt)
  exact List.sublist_of_subperm_of_pairwise (List.subperm_of_subset hnodup hsub) h h'

end ByKey

/-! ## Sorting by evaluation -/

section Computed

variable {α : Type}

/-- The stable merge of two lists. -/
def computedMerge (le : α → α → Bool) : List α → List α → List α
  | [], ys => ys
  | x :: xs, [] => x :: xs
  | x :: xs, y :: ys =>
    if le x y then x :: computedMerge le xs (y :: ys) else y :: computedMerge le (x :: xs) ys
  termination_by xs ys => xs.length + ys.length

theorem computedMerge_eq (le : α → α → Bool) (xs ys : List α) :
    computedMerge le xs ys = xs.merge ys le := by
  fun_induction computedMerge le xs ys with
  | case1 ys => rw [List.nil_merge]
  | case2 x xs => rw [List.merge_right]
  | case3 x xs y ys h ih => rw [List.cons_merge_cons, if_pos h, ih]
  | case4 x xs y ys h ih => rw [List.cons_merge_cons, if_neg h, ih]

/-- The stable merge sort, with at most `depth` halvings one in another. -/
def computedSort (le : α → α → Bool) : (depth : Nat) → List α → List α
  | 0, items => items
  | _ + 1, [] => []
  | _ + 1, [x] => [x]
  | depth + 1, x :: y :: rest =>
    let half := (rest.length + 3) / 2
    computedMerge le (computedSort le depth ((x :: y :: rest).take half))
      (computedSort le depth ((x :: y :: rest).drop half))

theorem computedSort_eq (le : α → α → Bool) {depth : Nat} {items : List α}
    (h : items.length ≤ depth) : computedSort le depth items = items.mergeSort le := by
  fun_induction computedSort le depth items with
  | case1 items => rw [List.length_eq_zero_iff.mp (Nat.le_zero.mp h), List.mergeSort_nil]
  | case2 depth => rw [List.mergeSort_nil]
  | case3 depth x => rw [List.mergeSort_singleton]
  | case4 depth x y rest half ih ih' =>
      simp only [List.length_cons] at h
      rw [computedMerge_eq, ih (by simp only [List.length_take, List.length_cons]; omega),
        ih' (by simp only [List.length_drop, List.length_cons]; omega), List.mergeSort]
      simp only [List.MergeSort.Internal.splitInTwo_fst, List.MergeSort.Internal.splitInTwo_snd,
        List.length_cons]
      rfl

/-- The merge sort of the library can be computed. -/
theorem mergeSort_eq_computedSort (le : α → α → Bool) (items : List α) :
    items.mergeSort le = computedSort le items.length items :=
  (computedSort_eq le (Nat.le_refl _)).symm

end Computed

end CodeChallenges

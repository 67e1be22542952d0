import CodeChallenges.Proofs.Gathering
import CodeChallenges.Proofs.Sorting
import CodeChallenges.Selection
import Mathlib.Data.List.Induction
/-!
# Selected chunks

The chunks that are kept for a file are some of its candidates, no two of them claim one place, and
they stand in strictly ascending order of their places (`bestOf_ascending`): path, then start, then
end from the back.  The rank decides which chunk stays at a place, and never the order.
-/

namespace CodeChallenges

namespace Chunk

/-- The place of a chunk. -/
def place (c : Chunk) : PlaceKey :=
  placeKey c.path c.span.start c.span.stop

/-- The key of a chunk. -/
def key (rank : Chunk → Nat) (c : Chunk) : SortKey :=
  sortKey c.path c.span.start c.span.stop (rank c)

theorem place_eq_iff {a b : Chunk} :
    a.place = b.place ↔ a.path = b.path ∧ a.span.range = b.span.range := by
  simp only [place, placeKey_eq_iff, Span.range, Prod.mk.injEq, Int.natCast_inj]

theorem key_eq_iff {rank : Chunk → Nat} {a b : Chunk} :
    a.key rank = b.key rank ↔ a.place = b.place ∧ rank a = rank b := by
  simp only [key, place, sortKey, EmbeddingLike.apply_eq_iff_eq, Prod.mk.injEq]

theorem lePath_iff {rank : Chunk → Nat} {a b : Chunk} :
    lePath rank a b = true ↔ a.key rank ≤ b.key rank := by
  simp only [lePath, le, key, sortKey_le_iff, Bool.or_eq_true, Bool.and_eq_true, decide_eq_true_eq,
    beq_iff_eq, Int.ofNat_lt, Int.natCast_inj]

end Chunk

namespace Selection

variable {r : Registry}

/-! ## The best chunk of each place -/

theorem samePlace_iff {a b : Chunk} : samePlace a b = true ↔ a.place = b.place := by
  rw [Chunk.place_eq_iff]
  simp only [samePlace, Bool.and_eq_true, beq_iff_eq]

theorem mem_of_mem_addBest {c d : Chunk} {best : List Chunk} (h : d ∈ addBest r c best) :
    d = c ∨ d ∈ best := by
  induction best with
  | nil => exact .inl (List.mem_singleton.mp h)
  | cons b rest ih =>
      rw [addBest] at h
      split at h
      · rcases List.mem_cons.mp h with rfl | h
        · split
          · exact .inl rfl
          · exact .inr List.mem_cons_self
        · exact .inr (List.mem_cons_of_mem b h)
      · rcases List.mem_cons.mp h with rfl | h
        · exact .inr List.mem_cons_self
        · exact (ih h).imp_right (List.mem_cons_of_mem b)

/-- What stays at a place when a newcomer comes. -/
def better (r : Registry) (best chunk : Chunk) : Chunk :=
  if supersedes r chunk best then chunk else best

theorem better_cases (best chunk : Chunk) :
    better r best chunk = best ∨ better r best chunk = chunk := by
  unfold better
  split
  · exact .inr rfl
  · exact .inl rfl

theorem place_better (best chunk : Chunk) (h : best.place = chunk.place) :
    (better r best chunk).place = best.place := by
  rcases better_cases best chunk with hbetter | hbetter
  · rw [hbetter]
  · rw [hbetter, h]

/-- Adding a chunk to the best chunks gathers it at its place. -/
theorem addBest_eq_gatherInto (chunk : Chunk) (best : List Chunk) :
    addBest r chunk best = gatherInto Chunk.place (better r) best chunk := by
  induction best with
  | nil => rfl
  | cons b rest ih =>
      rw [addBest, gatherInto]
      by_cases hsame : b.place = chunk.place
      · rw [if_pos (samePlace_iff.mpr hsame), if_pos hsame]
        rfl
      · rw [if_neg (fun h => hsame (samePlace_iff.mp h)), if_neg hsame, ih]

/-- The best chunks are the gathered ones. -/
theorem foldl_addBest (kept : List Chunk) :
    kept.foldl (fun best c => addBest r c best) [] = gather Chunk.place (better r) kept := by
  have hfold : (fun best c => addBest r c best) = gatherInto Chunk.place (better r) := by
    funext best c
    exact addBest_eq_gatherInto c best
  rw [hfold, gather]

/-! ## The selection -/

theorem mem_judged_iff {source : List UInt8} {comments imports : List Span}
    {candidates : List Chunk} {c : Chunk} {reason : Option DropReason} :
    (c, reason) ∈ judged r source comments imports candidates ↔
      c ∈ candidates ∧ dropReason c source (Span.sorted comments)
        (Span.sorted (Span.sorted comments ++ imports)) (r.byName c.language) = reason := by
  unfold judged
  rw [List.mem_map]
  constructor
  · rintro ⟨d, hd, heq⟩
    obtain ⟨rfl, hreason⟩ := Prod.mk.inj heq
    exact ⟨hd, hreason⟩
  · rintro ⟨hc, hreason⟩
    exact ⟨c, hc, by rw [hreason]⟩

/-- The candidates that are not dropped. -/
theorem mem_kept_iff {candidates : List (Chunk × Option DropReason)} {c : Chunk} :
    c ∈ (candidates.filter (·.2.isNone)).map (·.1) ↔ (c, none) ∈ candidates := by
  constructor
  · intro h
    obtain ⟨⟨d, reason⟩, hd, rfl⟩ := List.mem_map.mp h
    obtain ⟨hmem, hnone⟩ := List.mem_filter.mp hd
    rw [Option.isNone_iff_eq_none] at hnone
    exact hnone ▸ hmem
  · intro h
    exact List.mem_map.mpr ⟨(c, none), List.mem_filter.mpr ⟨h, rfl⟩, rfl⟩

theorem mem_bestOf_iff {candidates : List (Chunk × Option DropReason)} {c : Chunk} :
    c ∈ bestOf r candidates ↔
      c ∈ gather Chunk.place (better r) ((candidates.filter (·.2.isNone)).map (·.1)) := by
  rw [bestOf, List.mem_mergeSort, foldl_addBest]

/-- Every kept chunk is one that is not dropped. -/
theorem mem_of_mem_bestOf {candidates : List (Chunk × Option DropReason)} {c : Chunk}
    (h : c ∈ bestOf r candidates) : (c, none) ∈ candidates := by
  have hmem := of_mem_gather place_better (P := fun items d => d ∈ items) List.mem_singleton_self
    (fun items d c hd => ?_) (mem_bestOf_iff.mp h)
  · exact mem_kept_iff.mp (List.mem_filter.mp hmem).1
  · rcases better_cases (r := r) d c with hbetter | hbetter
    · rw [hbetter]
      exact List.mem_append_left _ hd
    · rw [hbetter]
      exact List.mem_append_right _ (List.mem_singleton_self c)

/-- Where a candidate is not dropped, a chunk is kept. -/
theorem exists_mem_bestOf {candidates : List (Chunk × Option DropReason)} {c : Chunk}
    (h : (c, none) ∈ candidates) : ∃ d ∈ bestOf r candidates, d.place = c.place := by
  obtain ⟨d, hd, hplace⟩ := exists_mem_gather (place_better (r := r)) (mem_kept_iff.mpr h)
  exact ⟨d, mem_bestOf_iff.mpr hd, hplace⟩

/-- No two kept chunks claim one place. -/
theorem nodup_places_bestOf (candidates : List (Chunk × Option DropReason)) :
    ((bestOf r candidates).map Chunk.place).Nodup := by
  have hsort := List.mergeSort_perm (gather Chunk.place (better r)
    ((candidates.filter (·.2.isNone)).map (·.1))) (Chunk.lePath (rank r))
  rw [bestOf, foldl_addBest]
  exact (hsort.map Chunk.place).nodup_iff.mpr (nodup_keys_gather place_better _)

/-- **The kept chunks** stand in strictly ascending order of their places. -/
theorem bestOf_ascending (candidates : List (Chunk × Option DropReason)) :
    (bestOf r candidates).Pairwise (fun a b => a.place < b.place) := by
  have hsorted : (bestOf r candidates).Pairwise (fun a b => a.key (rank r) ≤ b.key (rank r)) :=
    pairwise_mergeSort_key (Chunk.key (rank r)) (fun _ _ => Chunk.lePath_iff) _
  have hplaces := List.pairwise_map.mp (nodup_places_bestOf (r := r) candidates)
  exact hsorted.imp₂ (fun a b hle hne => placeKey_lt_of_sortKey_le hle hne) hplaces

/-- Of no candidates none is selected. -/
theorem resolve_nil (r : Registry) (source : List UInt8) (comments imports : List Span) :
    resolve r source comments imports [] = [] :=
  List.mergeSort_nil

/-- Every selected chunk is a candidate. -/
theorem mem_of_mem_resolve {source : List UInt8} {comments imports : List Span}
    {candidates : List Chunk} {c : Chunk} (h : c ∈ resolve r source comments imports candidates) :
    c ∈ candidates :=
  (mem_judged_iff.mp (mem_of_mem_bestOf h)).1

/-- No more chunks are selected than there are candidates. -/
theorem length_resolve_le (source : List UInt8) (comments imports : List Span)
    (candidates : List Chunk) :
    (resolve r source comments imports candidates).length ≤ candidates.length := by
  have hnodup : (resolve r source comments imports candidates).Nodup :=
    (nodup_places_bestOf _).of_map Chunk.place
  exact (List.subperm_of_subset hnodup fun _ hc => mem_of_mem_resolve hc).length_le

end Selection

end CodeChallenges

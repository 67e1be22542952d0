import CodeChallenges.Proofs.Selection
/-!
# More candidates

Candidates that come after others change the selection in one way only: where one of them
supersedes a chunk that was kept.  If none does, every chunk that was kept stays, in the same order,
and what stands between them comes from the later candidates (`bestOf_append`).
-/

namespace CodeChallenges.Selection

variable {r : Registry}

/-- A chunk that supersedes none of the first chunks is added behind them. -/
theorem exists_addBest_append {c : Chunk} {base : List Chunk} (more : List Chunk)
    (h : ∀ b ∈ base, b.place = c.place → supersedes r c b = false) :
    ∃ more', addBest r c (base ++ more) = base ++ more' ∧ ∀ d ∈ more', d = c ∨ d ∈ more := by
  induction base with
  | nil =>
      refine ⟨addBest r c more, rfl, ?_⟩
      intro d hd
      exact mem_of_mem_addBest hd
  | cons b base ih =>
      obtain ⟨hb, hbase⟩ := List.forall_mem_cons.mp h
      rw [List.cons_append, addBest]
      by_cases hsame : b.place = c.place
      · rw [if_pos (samePlace_iff.mpr hsame), hb hsame, if_neg Bool.false_ne_true]
        refine ⟨more, rfl, ?_⟩
        intro d hd
        exact .inr hd
      · rw [if_neg (fun heq => hsame (samePlace_iff.mp heq))]
        obtain ⟨more', heq, hmore⟩ := ih hbase
        exact ⟨more', by rw [heq, List.cons_append], hmore⟩

/-- Chunks that supersede none of the first chunks are added behind them, one after the other. -/
theorem exists_foldl_addBest_append {further base : List Chunk} (more : List Chunk)
    (h : ∀ c ∈ further, ∀ b ∈ base, b.place = c.place → supersedes r c b = false) :
    ∃ more', further.foldl (fun best c => addBest r c best) (base ++ more) = base ++ more' ∧
      ∀ d ∈ more', d ∈ further ∨ d ∈ more := by
  induction further generalizing more with
  | nil =>
      refine ⟨more, rfl, ?_⟩
      intro d hd
      exact .inr hd
  | cons c further ih =>
      obtain ⟨hc, hfurther⟩ := List.forall_mem_cons.mp h
      obtain ⟨next, hnext, hin⟩ := exists_addBest_append more hc
      obtain ⟨more', heq, hmore⟩ := ih next hfurther
      refine ⟨more', by rw [List.foldl_cons, hnext, heq], ?_⟩
      intro d hd
      rcases hmore d hd with hd | hd
      · exact .inl (List.mem_cons_of_mem c hd)
      · rcases hin d hd with rfl | hd
        · exact .inl List.mem_cons_self
        · exact .inr hd

/-- **Later candidates that supersede no kept chunk** leave the selection as it is and put chunks of
their own between. -/
theorem bestOf_append {earlier further : List (Chunk × Option DropReason)}
    (h : ∀ c, (c, none) ∈ further → ∀ b, (b, none) ∈ earlier → b.place = c.place →
      supersedes r c b = false) :
    (bestOf r earlier).Sublist (bestOf r (earlier ++ further)) ∧
      ∀ d ∈ bestOf r (earlier ++ further), d ∈ bestOf r earlier ∨ (d, none) ∈ further := by
  -- The fold over all candidates goes on from the fold over the earlier ones.
  have hbelow : ∀ c ∈ (further.filter (·.2.isNone)).map (·.1),
      ∀ b ∈ ((earlier.filter (·.2.isNone)).map (·.1)).foldl (fun best c => addBest r c best) [],
        b.place = c.place → supersedes r c b = false := by
    intro c hc b hb hplace
    have hbest : b ∈ bestOf r earlier := by
      rw [bestOf, List.mem_mergeSort]
      exact hb
    exact h c (mem_kept_iff.mp hc) b (mem_of_mem_bestOf hbest) hplace
  obtain ⟨more, hfold, hmore⟩ := exists_foldl_addBest_append [] hbelow
  have hmem : ∀ d, d ∈ bestOf r (earlier ++ further) ↔ d ∈ bestOf r earlier ∨ d ∈ more := by
    intro d
    rw [List.append_nil] at hfold
    simp only [bestOf, List.mem_mergeSort, List.filter_append, List.map_append, List.foldl_append,
      hfold, List.mem_append]
  constructor
  · refine sublist_of_ascending Chunk.place (bestOf_ascending earlier)
      (bestOf_ascending (earlier ++ further)) ?_
    intro d hd
    exact (hmem d).mpr (.inl hd)
  · intro d hd
    rcases (hmem d).mp hd with hd | hd
    · exact .inl hd
    · rcases hmore d hd with hd | hd
      · exact .inr (mem_kept_iff.mp hd)
      · cases hd

/-- Later candidates can be dropped like all others: only those that stay matter. -/
theorem bestOf_judged_append (source : List UInt8) (comments imports : List Span)
    {earlier further : List Chunk}
    (h : ∀ c ∈ further, ∀ b ∈ earlier, b.place = c.place → supersedes r c b = false) :
    (bestOf r (judged r source comments imports earlier)).Sublist
        (bestOf r (judged r source comments imports (earlier ++ further))) ∧
      ∀ d ∈ bestOf r (judged r source comments imports (earlier ++ further)),
        d ∈ bestOf r (judged r source comments imports earlier) ∨
          (d, none) ∈ judged r source comments imports further := by
  rw [judged, judged, List.map_append]
  refine bestOf_append ?_
  intro c hc b hb hplace
  exact h c (mem_judged_iff.mp hc).1 b (mem_judged_iff.mp hb).1 hplace

end CodeChallenges.Selection

import CodeChallenges.Proofs.Candidates
import CodeChallenges.Proofs.Gathering
import CodeChallenges.Proofs.Sorting
/-!
# Finds put together

The finds of a file are gathered by their byte ranges.  What stays at a range is the first find of
least rank, but for its name: it has one if any find of the range has, and its own if it has one
(`condenses_of_mem_collect`).  Every range of a find is kept (`exists_mem_collect`), and the chunks
stand in strictly ascending order of start, and end from the back (`collect_ascending`); the rank,
which the sort looks at last, never decides.
-/

namespace CodeChallenges

/-- What the chunks of one file are ordered by: the start, and the end from the back. -/
def Span.key (s : Span) : Int ×ₗ Int :=
  toLex ((s.start : Int), -(s.stop : Int))

theorem Span.key_eq_iff {s t : Span} : s.key = t.key ↔ s.range = t.range := by
  simp only [key, range, EmbeddingLike.apply_eq_iff_eq, Prod.mk.injEq, Int.neg_inj, Int.natCast_inj]

theorem Chunk.le_iff {rank : Chunk → Nat} {a b : Chunk} :
    le rank a b = true ↔ toLex (a.span.key, rank a) ≤ toLex (b.span.key, rank b) := by
  simp only [le, Span.key, Prod.Lex.toLex_le_toLex, Prod.Lex.toLex_lt_toLex, Bool.or_eq_true,
    Bool.and_eq_true, decide_eq_true_eq, beq_iff_eq, EmbeddingLike.apply_eq_iff_eq, Prod.mk.injEq,
    Int.neg_inj, Int.neg_lt_neg_iff, Int.ofNat_lt, Int.natCast_inj]
  constructor
  · rintro (h | ⟨hs, h | ⟨he, hk⟩⟩)
    · exact .inl (.inl h)
    · exact .inl (.inr ⟨hs, h⟩)
    · exact .inr ⟨⟨hs, he⟩, hk⟩
  · rintro ((h | ⟨hs, h⟩) | ⟨⟨hs, he⟩, hk⟩)
    · exact .inl h
    · exact .inr ⟨hs, .inl h⟩
    · exact .inr ⟨hs, .inr ⟨he, hk⟩⟩

namespace Candidates.Setting

variable {s : Setting}

/-- A chunk says what some finds at one place say together: all but its name is from the first find
of least rank, it has a name if any of them has one, and it has that of this find if there is one. -/
def Condenses (s : Setting) (finds : List Chunk) (d : Chunk) : Prop :=
  ∃ winner, Leads s.rank finds winner ∧ SameButName d winner ∧
    (winner.name ≠ none → d.name = winner.name) ∧ (d.name = none ↔ ∀ f ∈ finds, f.name = none)

theorem condenses_singleton (c : Chunk) : s.Condenses [c] c :=
  ⟨c, leads_singleton s.rank c, .refl c, fun _ => rfl,
    by rw [List.forall_mem_singleton]⟩

/-- A later find at the same place is taken into account. -/
theorem Condenses.merge {finds : List Chunk} {d : Chunk} (h : s.Condenses finds d) (c : Chunk) :
    s.Condenses (finds ++ [c]) (s.merge d c) := by
  obtain ⟨winner, hleads, hsame, hname, hnone⟩ := h
  have hrank : s.rank d = s.rank winner := congrArg s.language.rank hsame.chunkType_eq
  have hlead := hleads.append_singleton c
  have hall : (∀ f ∈ finds ++ [c], f.name = none) ↔ d.name = none ∧ c.name = none := by
    rw [List.forall_mem_append, List.forall_mem_singleton, hnone]
  unfold Setting.merge
  by_cases hlt : s.rank c < s.rank d
  · rw [if_pos (hrank ▸ hlt)] at hlead
    rw [if_pos hlt]
    refine ⟨c, hlead, ⟨rfl, rfl, rfl, rfl⟩, ?_, ?_⟩
    · intro hc
      obtain ⟨name, hc⟩ := Option.ne_none_iff_exists'.mp hc
      simp only [hc, Option.orElse_some]
    · simp only [hall, Option.orElse_eq_or, Option.or_eq_none_iff, and_comm]
  · rw [if_neg (hrank ▸ hlt)] at hlead
    rw [if_neg hlt]
    refine ⟨winner, hlead,
      ⟨hsame.span_eq, hsame.chunkType_eq, hsame.path_eq, hsame.language_eq⟩, ?_, ?_⟩
    · intro hwinner
      obtain ⟨name, hwinner'⟩ := Option.ne_none_iff_exists'.mp hwinner
      have hd := hname hwinner
      rw [hwinner'] at hd ⊢
      simp only [hd, Option.orElse_some]
    · simp only [hall, Option.orElse_eq_or, Option.or_eq_none_iff]

/-- **A collected chunk** says what the finds at its place say together. -/
theorem condenses_of_mem_collect {finds : List Chunk} {d : Chunk} (hd : d ∈ s.collect finds) :
    s.Condenses (finds.filter (·.span.range = d.span.range)) d :=
  of_mem_gather range_merge condenses_singleton (fun _ _ c ih => ih.merge c)
    (mem_collect_iff.mp hd)

/-- Where there is a find, there is a collected chunk. -/
theorem exists_mem_collect {finds : List Chunk} {f : Chunk} (hf : f ∈ finds) :
    ∃ d ∈ s.collect finds, d.span.range = f.span.range := by
  obtain ⟨d, hd, hrange⟩ := exists_mem_gather (range_merge (s := s)) hf
  exact ⟨d, mem_collect_iff.mpr hd, hrange⟩

/-- The ranges of the collected chunks are those of the finds. -/
theorem exists_mem_collect_iff {finds : List Chunk} {range : Nat × Nat} :
    (∃ d ∈ s.collect finds, d.span.range = range) ↔ ∃ f ∈ finds, f.span.range = range := by
  constructor
  · rintro ⟨d, hd, rfl⟩
    obtain ⟨f, hf, hsame⟩ := exists_of_mem_collect hd
    exact ⟨f, hf, congrArg Span.range hsame.span_eq.symm⟩
  · rintro ⟨f, hf, rfl⟩
    exact exists_mem_collect hf

/-- **The collected chunks** stand in strictly ascending order of start, and end from the back. -/
theorem collect_ascending (finds : List Chunk) :
    (s.collect finds).Pairwise (fun a b => a.span.key < b.span.key) := by
  have hsorted : (s.collect finds).Pairwise
      (fun a b => toLex (a.span.key, s.rank a) ≤ toLex (b.span.key, s.rank b)) :=
    pairwise_mergeSort_key (fun c : Chunk => toLex (c.span.key, s.rank c))
      (fun _ _ => Chunk.le_iff) _
  have hapart : (s.collect finds).Pairwise (fun a b => a.span.range ≠ b.span.range) := by
    have hsort := List.mergeSort_perm (gather (·.span.range) s.merge finds) (Chunk.le s.rank)
    rw [collect, foldl_add]
    exact List.pairwise_map.mp
      ((hsort.map _).nodup_iff.mpr (nodup_keys_gather range_merge finds))
  refine hsorted.imp₂ ?_ hapart
  intro a b hle hne
  rcases Prod.Lex.toLex_le_toLex.mp hle with hlt | ⟨heq, -⟩
  · exact hlt
  · exact absurd (Span.key_eq_iff.mp heq) hne

end Candidates.Setting

end CodeChallenges

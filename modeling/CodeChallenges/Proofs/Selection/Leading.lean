import CodeChallenges.Proofs.Gathering
import CodeChallenges.Proofs.Registry
import CodeChallenges.Proofs.Selection.Containment
/-!
# Who wins a place

Selection gathers the candidates that are not dropped by their places.  Where all candidates speak of
one language, a newcomer takes a place exactly if its rank is lower than that of the chunk there, so
the winner of a place is the first of those of least rank (`resolve_leads`).

Candidates of several languages have no such law: a newcomer ranks both chunks in its own language.
-/

namespace CodeChallenges.Selection

variable {r : Registry} {source : List UInt8} {comments imports : List Span}
  {candidates : List Chunk}

/-- Whether a candidate is not dropped. -/
def keeps (r : Registry) (source : List UInt8) (comments imports : List Span) (c : Chunk) : Bool :=
  (dropReason c source (Span.sorted comments) (Span.sorted (Span.sorted comments ++ imports))
    (r.byName c.language)).isNone

theorem kept_judged :
    ((judged r source comments imports candidates).filter (·.2.isNone)).map (·.1) =
      candidates.filter (keeps r source comments imports) := by
  rw [judged, List.filter_map, List.map_map]
  exact List.map_id _

/-- The selected chunks are the gathered ones, in order. -/
theorem mem_resolve_iff {c : Chunk} :
    c ∈ resolve r source comments imports candidates ↔
      c ∈ gather Chunk.place (better r) (candidates.filter (keeps r source comments imports)) := by
  rw [resolve, mem_bestOf_iff, kept_judged]

/-- Among chunks of one language the one that stays at a place is the first of least rank. -/
theorem leads_of_mem_gather {name : String} {kept : List Chunk}
    (hname : ∀ c ∈ kept, c.language = name) {d : Chunk}
    (hd : d ∈ gather Chunk.place (better r) kept) :
    Leads (rank r) (kept.filter (·.place = d.place)) d := by
  -- The law is about lists of one language, and so are all parts of `kept`.
  refine of_mem_gather place_better (P := fun items d => (∀ c ∈ items, c.language = name) →
    Leads (rank r) items d) ?_ ?_ hd ?_
  · intro c _
    exact leads_singleton (rank r) c
  · intro items d c ih hitems
    have hlead := ih fun e he => hitems e (List.mem_append_left _ he)
    have hd : d.language = name := hitems d (List.mem_append_left _ hlead.mem)
    have hc : c.language = name := hitems c (List.mem_append_right _ (List.mem_singleton_self c))
    have hbetter : better r d c = if rank r c < rank r d then c else d := by
      simp only [better, supersedes, rank, hc, hd, decide_eq_true_eq]
    rw [hbetter]
    exact hlead.append_singleton c
  · intro c hc
    exact hname c (List.mem_filter.mp hc).1

/-- **The selection** of candidates of one language stands in strictly ascending order of path, start,
and end from the back; it has exactly one chunk at each place of a candidate that is not dropped;
and that chunk is the first of least rank among the candidates at the place that are not dropped. -/
theorem resolve_leads {name : String} (hname : ∀ c ∈ candidates, c.language = name) :
    (resolve r source comments imports candidates).Pairwise (fun a b => a.place < b.place) ∧
    (∀ c ∈ candidates, keeps r source comments imports c = true →
      ∃! d, d ∈ resolve r source comments imports candidates ∧ d.place = c.place) ∧
    ∀ d, d ∈ resolve r source comments imports candidates ↔
      Leads (rank r)
        ((candidates.filter (keeps r source comments imports)).filter (·.place = d.place)) d := by
  have hkept : ∀ c ∈ candidates.filter (keeps r source comments imports), c.language = name := by
    intro c hc
    exact hname c (List.mem_filter.mp hc).1
  have hexists : ∀ c ∈ candidates.filter (keeps r source comments imports),
      ∃ d ∈ resolve r source comments imports candidates, d.place = c.place := by
    intro c hc
    obtain ⟨d, hd, hplace⟩ := exists_mem_gather (place_better (r := r)) hc
    exact ⟨d, mem_resolve_iff.mpr hd, hplace⟩
  have hleads : ∀ d ∈ resolve r source comments imports candidates, Leads (rank r)
      ((candidates.filter (keeps r source comments imports)).filter (·.place = d.place)) d := by
    intro d hd
    exact leads_of_mem_gather hkept (mem_resolve_iff.mp hd)
  refine ⟨bestOf_ascending _, ?_, ?_⟩
  · intro c hc hkeeps
    obtain ⟨d, hd, hplace⟩ := hexists c (List.mem_filter.mpr ⟨hc, hkeeps⟩)
    refine ⟨d, ⟨hd, hplace⟩, ?_⟩
    rintro e ⟨he, heplace⟩
    have hlead := hleads e he
    rw [heplace, ← hplace] at hlead
    exact hlead.unique (hleads d hd)
  · intro d
    refine ⟨hleads d, ?_⟩
    intro hlead
    obtain ⟨e, he, hplace⟩ := hexists d (List.mem_filter.mp hlead.mem).1
    have helead := hleads e he
    rw [hplace] at helead
    rw [hlead.unique helead]
    exact he

/-! ## Three candidates at one place -/

/-- A language in which methods come before functions. -/
def rankedLanguage : Language where
  name := "ranked"
  displayName := "Ranked"
  grammar := "ranked"
  extensions := ["ranked"]
  priority := [.method, .function]
  minLines := 1

/-- A file of one line. -/
def rankedSource : List UInt8 :=
  Text.Utf8.encode "print(12345678)".toList

/-- The whole line. -/
def rankedSpan : Span where
  start := 0
  stop := 15
  firstLine := 1
  lastLine := 1
  start_le_stop := by decide
  firstLine_pos := by decide
  firstLine_le_lastLine := by decide

/-- The line as a chunk of some kind. -/
def rankedChunk (chunkType : ChunkType) (name : String) : Chunk :=
  ⟨rankedSpan, chunkType, "f.ranked", "ranked", some name⟩

/-- The line as a function and then twice as a method. -/
def rankedCandidates : List Chunk :=
  [rankedChunk .function "a", rankedChunk .method "b", rankedChunk .method "c"]

/-- None of the three is dropped. -/
theorem ranked_kept :
    rankedCandidates.filter (keeps ⟨[rankedLanguage]⟩ rankedSource [] []) = rankedCandidates := by
  have hkeyed : Registry.Keyed ⟨[rankedLanguage]⟩ := List.nodup_singleton _
  have hname : (⟨[rankedLanguage]⟩ : Registry).byName rankedLanguage.name = some rankedLanguage :=
    Registry.byName_of_last hkeyed (List.nil_append _).symm
  have hkept : ∀ chunkType name, dropReason (rankedChunk chunkType name) rankedSource [] []
      (some rankedLanguage) = none := by
    intro chunkType name
    have hlines : minLinesIn (some rankedLanguage) ≤ rankedSpan.lineCount := by decide
    have hblank : blankOutside rankedSource rankedSpan [] = false := by decide
    have hslice : slice rankedSource 0 15 = Text.Utf8.encode "print(12345678)".toList := by decide
    refine dropReason_eq_none_iff.mpr ⟨hlines, ?_, hblank, hblank⟩
    show minChars ≤ (Text.trim (Text.Utf8.decodeLossy (slice rankedSource 0 15))).length
    rw [hslice, Text.Utf8.decodeLossy_encode]
    decide
  refine List.filter_eq_self.mpr ?_
  intro c hc
  obtain ⟨chunkType, name, rfl⟩ : ∃ chunkType name, c = rankedChunk chunkType name := by
    simp only [rankedCandidates, List.mem_cons, List.not_mem_nil, or_false] at hc
    rcases hc with rfl | rfl | rfl <;> exact ⟨_, _, rfl⟩
  have hempty : Span.sorted [] = [] := List.mergeSort_nil
  show (dropReason _ _ (Span.sorted []) (Span.sorted (Span.sorted [] ++ []))
    ((⟨[rankedLanguage]⟩ : Registry).byName rankedLanguage.name)).isNone = true
  rw [hname, hempty, List.append_nil, hempty, hkept]
  rfl

/-- The first of the two methods wins. -/
theorem resolve_leads_sample :
    (∀ c ∈ rankedCandidates, c.language = "ranked") ∧
    (∀ d, d ∈ resolve ⟨[rankedLanguage]⟩ rankedSource [] [] rankedCandidates ↔
      Leads (rank ⟨[rankedLanguage]⟩) ((rankedCandidates.filter
        (keeps ⟨[rankedLanguage]⟩ rankedSource [] [])).filter (·.place = d.place)) d) ∧
    rankedChunk .method "b" ∈ resolve ⟨[rankedLanguage]⟩ rankedSource [] [] rankedCandidates := by
  have hlanguage : ∀ c ∈ rankedCandidates, c.language = "ranked" := by decide
  obtain ⟨-, -, hleads⟩ :=
    @resolve_leads ⟨[rankedLanguage]⟩ rankedSource [] [] rankedCandidates "ranked" hlanguage
  refine ⟨hlanguage, hleads, (hleads _).mpr ?_⟩
  have hplace : rankedCandidates.filter (·.place = (rankedChunk .method "b").place) =
      rankedCandidates := List.filter_eq_self.mpr (by decide)
  rw [ranked_kept, hplace]
  exact ⟨[rankedChunk .function "a"], [rankedChunk .method "c"], rfl, by decide, by decide⟩

end CodeChallenges.Selection

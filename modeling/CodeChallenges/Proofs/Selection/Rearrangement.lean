import CodeChallenges.Proofs.Selection.Leading
/-!
# Selecting in parts, and in another order

What is selected at a place is the leader of the candidates there that are not dropped
(`leads_of_mem_resolve`), so that two lists of candidates with the same leaders select the same
chunks (`resolve_eq_of_leads`).  The leader of two lists is the leader of their two leaders: a list
can be selected from in parts (`resolve_append`).  Another order of the candidates may change the
leader only for one of the same rank (`forall₂_resolve_of_perm`), and where no two candidates of one
place tie it changes nothing (`resolve_eq_of_perm`).
-/

namespace CodeChallenges.Selection

variable {r : Registry} {source : List UInt8} {comments imports : List Span}
  {candidates more : List Chunk} {name : String}

/-- The candidates at a place that are not dropped, in their order. -/
def keptAt (r : Registry) (source : List UInt8) (comments imports : List Span)
    (candidates : List Chunk) (place : PlaceKey) : List Chunk :=
  (candidates.filter (keeps r source comments imports)).filter (·.place = place)

theorem mem_keptAt_iff {place : PlaceKey} {c : Chunk} :
    c ∈ keptAt r source comments imports candidates place ↔
      c ∈ candidates ∧ keeps r source comments imports c = true ∧ c.place = place := by
  simp only [keptAt, List.mem_filter, decide_eq_true_eq, and_assoc]

theorem keptAt_append (place : PlaceKey) :
    keptAt r source comments imports (candidates ++ more) place =
      keptAt r source comments imports candidates place ++
        keptAt r source comments imports more place := by
  simp only [keptAt, List.filter_append]

theorem keptAt_perm (h : candidates.Perm more) (place : PlaceKey) :
    (keptAt r source comments imports candidates place).Perm
      (keptAt r source comments imports more place) :=
  (h.filter _).filter _

/-! ## What is selected at a place -/

theorem keeps_of_mem_resolve {c : Chunk}
    (h : c ∈ resolve r source comments imports candidates) :
    keeps r source comments imports c = true :=
  Option.isNone_iff_eq_none.mpr (mem_judged_iff.mp (mem_of_mem_bestOf h)).2

/-- Of the selected chunks none would be dropped. -/
theorem mem_keptAt_resolve_iff {place : PlaceKey} {c : Chunk} :
    c ∈ keptAt r source comments imports (resolve r source comments imports candidates) place ↔
      c ∈ resolve r source comments imports candidates ∧ c.place = place := by
  rw [mem_keptAt_iff]
  exact and_congr_right fun h => and_iff_right (keeps_of_mem_resolve h)

/-- Where a candidate is not dropped, a chunk is selected. -/
theorem exists_mem_resolve {place : PlaceKey} {c : Chunk}
    (h : c ∈ keptAt r source comments imports candidates place) :
    ∃ d ∈ resolve r source comments imports candidates, d.place = place := by
  obtain ⟨hc, hkeeps, rfl⟩ := mem_keptAt_iff.mp h
  exact exists_mem_bestOf (mem_judged_iff.mpr ⟨hc, Option.isNone_iff_eq_none.mp hkeeps⟩)

/-- A selected chunk leads the candidates at its place. -/
theorem leads_of_mem_resolve (hname : ∀ c ∈ candidates, c.language = name) {d : Chunk}
    (hd : d ∈ resolve r source comments imports candidates) :
    Leads (rank r) (keptAt r source comments imports candidates d.place) d :=
  leads_of_mem_gather (fun c hc => hname c (List.mem_filter.mp hc).1) (mem_resolve_iff.mp hd)

/-- Candidates with the same places and the same leaders are selected from alike. -/
theorem resolve_eq_of_leads (hname : ∀ c ∈ candidates, c.language = name)
    (hname' : ∀ c ∈ more, c.language = name)
    (hplaces : ∀ place, ∀ c ∈ keptAt r source comments imports candidates place,
      ∃ d, d ∈ keptAt r source comments imports more place)
    (hleads : ∀ place d, Leads (rank r) (keptAt r source comments imports more place) d →
      Leads (rank r) (keptAt r source comments imports candidates place) d) :
    resolve r source comments imports candidates = resolve r source comments imports more := by
  have heq : ∀ d ∈ resolve r source comments imports candidates,
      ∀ e ∈ resolve r source comments imports more, d.place = e.place → d = e := by
    intro d hd e he hplace
    have hlead := hleads e.place e (leads_of_mem_resolve hname' he)
    rw [← hplace] at hlead
    exact (leads_of_mem_resolve hname hd).unique hlead
  refine eq_of_ascending Chunk.place (bestOf_ascending _) (bestOf_ascending _) ?_
  intro d
  constructor
  · intro hd
    obtain ⟨c, hc⟩ := hplaces d.place d (leads_of_mem_resolve hname hd).mem
    obtain ⟨e, he, hplace⟩ := exists_mem_resolve hc
    rw [heq d hd e he hplace.symm]
    exact he
  · intro hd
    have hlead := hleads d.place d (leads_of_mem_resolve hname' hd)
    obtain ⟨e, he, hplace⟩ := exists_mem_resolve hlead.mem
    rw [← heq e he d hd hplace]
    exact he

/-! ## In parts -/

/-- What leads the selections from two lists leads the two lists. -/
theorem leads_of_leads_resolved (hname : ∀ c ∈ candidates, c.language = name)
    (hname' : ∀ c ∈ more, c.language = name) {place : PlaceKey} {d : Chunk}
    (h : Leads (rank r) (keptAt r source comments imports
      (resolve r source comments imports candidates ++ resolve r source comments imports more)
      place) d) :
    Leads (rank r) (keptAt r source comments imports (candidates ++ more) place) d := by
  -- The selected chunk has the least rank of its place.
  have hleast : ∀ {items : List Chunk}, (∀ c ∈ items, c.language = name) →
      ∀ c ∈ keptAt r source comments imports items place,
        ∃ e ∈ keptAt r source comments imports (resolve r source comments imports items) place,
          rank r e ≤ rank r c := by
    intro items hitems c hc
    obtain ⟨e, he, rfl⟩ := exists_mem_resolve hc
    exact ⟨e, mem_keptAt_resolve_iff.mpr ⟨he, rfl⟩, (leads_of_mem_resolve hitems he).rank_le hc⟩
  rw [keptAt_append, leads_append_iff] at h ⊢
  rcases h with ⟨hlead, hrest⟩ | ⟨hlead, hrest⟩
  · obtain ⟨hd, rfl⟩ := mem_keptAt_resolve_iff.mp hlead.mem
    refine .inl ⟨leads_of_mem_resolve hname hd, ?_⟩
    intro c hc
    obtain ⟨e, he, hle⟩ := hleast hname' c hc
    exact Nat.le_trans (hrest e he) hle
  · obtain ⟨hd, rfl⟩ := mem_keptAt_resolve_iff.mp hlead.mem
    refine .inr ⟨leads_of_mem_resolve hname' hd, ?_⟩
    intro c hc
    obtain ⟨e, he, hle⟩ := hleast hname c hc
    exact Nat.lt_of_lt_of_le (hrest e he) hle

/-- The selection from two lists is the selection from their selections. -/
theorem resolve_append (hname : ∀ c ∈ candidates, c.language = name)
    (hname' : ∀ c ∈ more, c.language = name) :
    resolve r source comments imports (candidates ++ more) =
      resolve r source comments imports (resolve r source comments imports candidates ++
        resolve r source comments imports more) := by
  have hall : ∀ c ∈ candidates ++ more, c.language = name :=
    List.forall_mem_append.mpr ⟨hname, hname'⟩
  have hselected : ∀ c ∈ resolve r source comments imports candidates ++
      resolve r source comments imports more, c.language = name :=
    List.forall_mem_append.mpr
      ⟨fun c hc => hname c (mem_of_mem_resolve hc), fun c hc => hname' c (mem_of_mem_resolve hc)⟩
  refine resolve_eq_of_leads hall hselected ?_ fun place d => leads_of_leads_resolved hname hname'
  intro place c hc
  simp only [keptAt_append, List.mem_append, mem_keptAt_resolve_iff] at hc ⊢
  rcases hc with hc | hc
  · obtain ⟨d, hd, hplace⟩ := exists_mem_resolve hc
    exact ⟨d, .inl ⟨hd, hplace⟩⟩
  · obtain ⟨d, hd, hplace⟩ := exists_mem_resolve hc
    exact ⟨d, .inr ⟨hd, hplace⟩⟩

/-- Selecting from a selection changes nothing. -/
theorem resolve_resolve (hname : ∀ c ∈ candidates, c.language = name) :
    resolve r source comments imports (resolve r source comments imports candidates) =
      resolve r source comments imports candidates := by
  have happend : resolve r source comments imports (candidates ++ []) =
      resolve r source comments imports (resolve r source comments imports candidates ++
        resolve r source comments imports []) :=
    resolve_append hname (List.forall_mem_nil _)
  rw [resolve_nil, List.append_nil, List.append_nil] at happend
  exact happend.symm

/-! ## In another order -/

/-- Another order of the candidates selects a chunk of the same rank at the same place. -/
theorem exists_key_eq_of_perm (hname : ∀ c ∈ candidates, c.language = name)
    (h : candidates.Perm more) {c : Chunk} (hc : c ∈ resolve r source comments imports candidates) :
    ∃ d ∈ resolve r source comments imports more, d.key (rank r) = c.key (rank r) := by
  have hname' : ∀ c ∈ more, c.language = name := fun c hc => hname c (h.mem_iff.mpr hc)
  have hlead := leads_of_mem_resolve hname hc
  obtain ⟨d, hd, hplace⟩ := exists_mem_resolve ((keptAt_perm h _).mem_iff.mp hlead.mem)
  have hlead' := leads_of_mem_resolve hname' hd
  rw [hplace] at hlead'
  refine ⟨d, hd, Chunk.key_eq_iff.mpr ⟨hplace, Nat.le_antisymm ?_ ?_⟩⟩
  · exact hlead'.rank_le ((keptAt_perm h _).mem_iff.mp hlead.mem)
  · exact hlead.rank_le ((keptAt_perm h _).mem_iff.mpr hlead'.mem)

/-- Another order of the candidates selects the same places with the same ranks. -/
theorem forall₂_resolve_of_perm (hname : ∀ c ∈ candidates, c.language = name)
    (h : more.Perm candidates) :
    List.Forall₂ (fun c d => c.place = d.place ∧ rank r c = rank r d)
      (resolve r source comments imports more) (resolve r source comments imports candidates) := by
  have hname' : ∀ c ∈ more, c.language = name := fun c hc => hname c (h.mem_iff.mp hc)
  have hascending : ∀ items : List Chunk,
      ((resolve r source comments imports items).map (Chunk.key (rank r))).Pairwise (· < ·) := by
    intro items
    refine List.pairwise_map.mpr ((bestOf_ascending _).imp ?_)
    intro a b hlt
    exact sortKey_lt_of_placeKey_lt _ _ hlt
  have hkeys : (resolve r source comments imports more).map (Chunk.key (rank r)) =
      (resolve r source comments imports candidates).map (Chunk.key (rank r)) := by
    refine eq_of_ascending id (hascending more) (hascending candidates) ?_
    intro key
    simp only [List.mem_map]
    constructor
    · rintro ⟨c, hc, rfl⟩
      exact exists_key_eq_of_perm hname' h hc
    · rintro ⟨c, hc, rfl⟩
      exact exists_key_eq_of_perm hname h.symm hc
  rw [← List.forall₂_eq_eq_eq, List.forall₂_map_left_iff, List.forall₂_map_right_iff] at hkeys
  exact hkeys.imp fun c d => Chunk.key_eq_iff.mp

/-- Without ties the order of the candidates does not matter. -/
theorem resolve_eq_of_perm (hname : ∀ c ∈ candidates, c.language = name)
    (h : more.Perm candidates)
    (huntied : ∀ c ∈ candidates, ∀ d ∈ candidates, keeps r source comments imports c = true →
      keeps r source comments imports d = true → c.place = d.place → rank r c = rank r d → c = d) :
    resolve r source comments imports more = resolve r source comments imports candidates := by
  have hname' : ∀ c ∈ more, c.language = name := fun c hc => hname c (h.mem_iff.mp hc)
  refine (resolve_eq_of_leads hname hname' ?_ ?_).symm
  · intro place c hc
    exact ⟨c, (keptAt_perm h place).mem_iff.mpr hc⟩
  · intro place d hlead
    -- The leader before the rearrangement has the rank of `d`, and is `d` as nothing ties with it.
    have hd := (keptAt_perm h place).mem_iff.mp hlead.mem
    obtain ⟨e, he, rfl⟩ := exists_mem_resolve hd
    have hfirst := leads_of_mem_resolve hname he
    have hrank : rank r e = rank r d :=
      Nat.le_antisymm (hfirst.rank_le hd) (hlead.rank_le ((keptAt_perm h _).mem_iff.mpr hfirst.mem))
    obtain ⟨hdmem, hdkeeps, hplace⟩ := mem_keptAt_iff.mp hd
    obtain ⟨hemem, hekeeps, -⟩ := mem_keptAt_iff.mp hfirst.mem
    rw [← huntied e hemem d hdmem hekeeps hdkeeps hplace.symm hrank]
    exact hfirst

/-- **Selection and the order of work**, for candidates of one language: selecting in parts comes to
the same, so that selecting again changes nothing; a rearrangement of the candidates selects the
same places with the same ranks, and the same chunks where no two candidates tie. -/
theorem resolve_rearranged {a b : List Chunk} (hname : ∀ c ∈ a ++ b, c.language = name) :
    resolve r source comments imports (a ++ b) =
      resolve r source comments imports
        (resolve r source comments imports a ++ resolve r source comments imports b) ∧
    resolve r source comments imports (resolve r source comments imports a) =
      resolve r source comments imports a ∧
    ∀ a' : List Chunk, a'.Perm a →
      List.Forall₂
        (fun c d => c.path = d.path ∧ c.span.range = d.span.range ∧ rank r c = rank r d)
        (resolve r source comments imports a') (resolve r source comments imports a) ∧
      ((∀ c ∈ a, ∀ d ∈ a, keeps r source comments imports c = true →
          keeps r source comments imports d = true → c.path = d.path →
          c.span.range = d.span.range → rank r c = rank r d → c = d) →
        resolve r source comments imports a' = resolve r source comments imports a) := by
  obtain ⟨ha, hb⟩ := List.forall_mem_append.mp hname
  refine ⟨resolve_append ha hb, resolve_resolve ha, ?_⟩
  intro a' hperm
  constructor
  · refine (forall₂_resolve_of_perm ha hperm).imp ?_
    rintro c d ⟨hplace, hrank⟩
    obtain ⟨hpath, hrange⟩ := Chunk.place_eq_iff.mp hplace
    exact ⟨hpath, hrange, hrank⟩
  · intro huntied
    refine resolve_eq_of_perm ha hperm ?_
    intro c hc d hd hckeeps hdkeeps hplace hrank
    obtain ⟨hpath, hrange⟩ := Chunk.place_eq_iff.mp hplace
    exact huntied c hc d hd hckeeps hdkeeps hpath hrange hrank

/-- A function and two methods at one place, selected in two parts, and the first part in another
order: the function and the method before it do not tie, and this method is what is selected each
time. -/
theorem resolve_rearranged_sample :
    (∀ c ∈ [rankedChunk .function "a", rankedChunk .method "b"] ++ [rankedChunk .method "c"],
      c.language = "ranked") ∧
    resolve ⟨[rankedLanguage]⟩ rankedSource [] [] rankedCandidates =
      resolve ⟨[rankedLanguage]⟩ rankedSource [] []
        (resolve ⟨[rankedLanguage]⟩ rankedSource [] []
            [rankedChunk .function "a", rankedChunk .method "b"] ++
          resolve ⟨[rankedLanguage]⟩ rankedSource [] [] [rankedChunk .method "c"]) ∧
    resolve ⟨[rankedLanguage]⟩ rankedSource [] [] rankedCandidates = [rankedChunk .method "b"] ∧
    resolve ⟨[rankedLanguage]⟩ rankedSource [] []
        [rankedChunk .method "b", rankedChunk .function "a"] =
      resolve ⟨[rankedLanguage]⟩ rankedSource [] []
        [rankedChunk .function "a", rankedChunk .method "b"] ∧
    resolve ⟨[rankedLanguage]⟩ rankedSource [] []
        [rankedChunk .function "a", rankedChunk .method "b"] = [rankedChunk .method "b"] := by
  have hlanguage : ∀ c ∈ [rankedChunk .function "a", rankedChunk .method "b"] ++
      [rankedChunk .method "c"], c.language = "ranked" := by decide
  obtain ⟨hparts, -, horder⟩ :=
    @resolve_rearranged ⟨[rankedLanguage]⟩ rankedSource [] [] "ranked" _ _ hlanguage
  refine ⟨hlanguage, hparts, ?_, (horder _ (List.Perm.swap _ _ [])).2 ?_, ?_⟩
  · -- Sorting does not reduce; what sorts by evaluation takes its place.
    simp only [resolve, judged, bestOf, Span.sorted, mergeSort_eq_computedSort]
    decide +kernel
  · -- The method has the lower rank.
    have hrank : rank ⟨[rankedLanguage]⟩ (rankedChunk .method "b") <
        rank ⟨[rankedLanguage]⟩ (rankedChunk .function "a") := by decide
    intro c hc d hd _ _ _ _ heq
    simp only [List.mem_cons, List.not_mem_nil, or_false] at hc hd
    rcases hc with rfl | rfl <;> rcases hd with rfl | rfl
    · rfl
    · omega
    · omega
    · rfl
  · simp only [resolve, judged, bestOf, Span.sorted, mergeSort_eq_computedSort]
    decide +kernel

end CodeChallenges.Selection

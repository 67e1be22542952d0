import CodeChallenges.Candidates
import CodeChallenges.Proofs.Gathering
import CodeChallenges.Proofs.LineMap
import CodeChallenges.Proofs.Outcome
import CodeChallenges.Proofs.Tree.Capture
import CodeChallenges.Proofs.Tree.Nested
/-!
# Where candidates come from

Every candidate of a file is the whole file or is cut from a node: it begins at the line start of
the node and ends with it, on the lines of its bytes (`structural_origin`, `blocks_origin`,
`wholeFile_origin`).  The node is one that a query names as a kind of code.  Putting finds together
changes nothing but names (`exists_of_mem_collect`).
-/

namespace CodeChallenges.Candidates

open CodeChallenges.Tree

/-- The span of a node reaches from its line start to its end, on the lines of its bytes. -/
theorem nodeSpan_eq_ok {source : List UInt8} {n : Node} {span : Span}
    (h : nodeSpan source (LineMap.ofBytes source) n = .ok span) :
    span.start = lineStart source n.start ∧ span.stop = n.stop ∧ span.OnLinesOf source := by
  obtain ⟨start, hstart, h⟩ := bind_eq_ok_iff.mp h
  have hline := (lineStart?_natCast_eq_ok_iff.mp (mapError_eq_ok_iff.mp hstart)).2
  obtain ⟨hs, he, hlines⟩ := LineMap.span_eq_ok (mapError_eq_ok_iff.mp h)
  exact ⟨by omega, by omega, hlines⟩

/-- The matches of several queries are matches of one of them. -/
theorem exists_of_mem_matchesOf {queries : List Query} {root : Node} {found : List (List Capture)}
    (h : matchesOf queries root = .ok found) {captures : List Capture} (hc : captures ∈ found) :
    ∃ query ∈ queries, ∃ ofQuery, query root = .ok ofQuery ∧ captures ∈ ofQuery := by
  obtain ⟨all, hall, h⟩ := bind_eq_ok_iff.mp h
  rw [← pure_eq_ok_iff.mp h] at hc
  obtain ⟨ofQuery, hofQuery, hc⟩ := List.mem_flatten.mp hc
  obtain ⟨query, hquery, hok⟩ := exists_of_mem_mapM hall hofQuery
  exact ⟨query, hquery, ofQuery, mapError_eq_ok_iff.mp hok, hc⟩

namespace Setting

variable {s : Setting}

/-! ## Origins -/

/-- A node is named as a kind of code: somewhere in the tree one of the queries has a match that
gives it such a name. -/
def Captured (s : Setting) (queries : List Query) (root n : Node) : Prop :=
  ∃ query ∈ queries, ∃ scope ∈ root.preorder, ∃ found, query scope = .ok found ∧
    ∃ captures ∈ found, ∃ c ∈ captures, c.node = n ∧ (s.language.chunkTypeFor c.name).isSome

/-- A captured node is a node of the tree. -/
theorem Captured.mem_preorder {queries : List Query} {root n : Node}
    (h : s.Captured queries root n) (hlocal : ∀ query ∈ queries, query.Local) :
    n ∈ root.preorder := by
  obtain ⟨query, hquery, scope, hscope, found, hfound, captures, hcap, c, hc, rfl, -⟩ := h
  exact Node.preorder_trans hscope (hlocal query hquery scope found hfound captures hcap c hc)

/-- A chunk of the file reaches from the line start of a node to its end. -/
structure CutFrom (s : Setting) (c : Chunk) (n : Node) : Prop where
  start_eq : c.span.start = lineStart s.source n.start
  stop_eq : c.span.stop = n.stop

/-- A chunk of the file is cut from one of some nodes, or it is the whole file. -/
structure Origin (s : Setting) (captured : Node → Prop) (c : Chunk) : Prop where
  path_eq : c.path = s.path
  language_eq : c.language = s.language.name
  lines : c.span.OnLinesOf s.source
  place : (∃ n, captured n ∧ s.CutFrom c n) ∨ c.span.range = (0, s.source.length)

theorem Origin.mono {captured captured' : Node → Prop} {c : Chunk} (h : s.Origin captured c)
    (hc : ∀ n, captured n → captured' n) : s.Origin captured' c :=
  ⟨h.path_eq, h.language_eq, h.lines,
    h.place.imp_left fun ⟨n, hn, hcut⟩ => ⟨n, hc n hn, hcut⟩⟩

/-- An origin is a matter of the span, the path and the language of a chunk. -/
theorem Origin.congr {captured : Node → Prop} {c d : Chunk} (h : s.Origin captured c)
    (hspan : d.span = c.span) (hpath : d.path = c.path) (hlang : d.language = c.language) :
    s.Origin captured d := by
  refine ⟨hpath ▸ h.path_eq, hlang ▸ h.language_eq, hspan ▸ h.lines, ?_⟩
  rcases h.place with ⟨n, hn, hcut⟩ | hrange
  · exact .inl ⟨n, hn, hspan ▸ hcut.start_eq, hspan ▸ hcut.stop_eq⟩
  · exact .inr (hspan ▸ hrange)

/-- A chunk begins and ends between characters if the nodes of the tree do. -/
theorem Origin.isBoundary {captured : Node → Prop} {root : Node} {c : Chunk}
    (h : s.Origin captured c) (hin : ∀ n, captured n → n ∈ root.preorder)
    (hroot : root.OnBoundaries s.source) (hv : Text.Utf8.isValid s.source = true) :
    Text.Utf8.IsBoundary s.source c.span.start ∧ Text.Utf8.IsBoundary s.source c.span.stop := by
  rcases h.place with ⟨n, hn, hcut⟩ | hwhole
  · rw [hcut.start_eq, hcut.stop_eq]
    exact ⟨lineStart_isBoundary (hroot.start_boundary n (hin n hn)),
      hroot.stop_boundary n (hin n hn)⟩
  · obtain ⟨hstart, hstop⟩ := Prod.mk.inj hwhole
    rw [hstart, hstop]
    exact ⟨Text.Utf8.isBoundary_zero hv, Text.Utf8.isBoundary_length hv⟩

/-- A chunk whose span is that of a captured node has its origin in the node. -/
theorem origin_of_nodeSpan {captured : Node → Prop} {n : Node} {span : Span}
    (hs : s.lines = LineMap.ofBytes s.source) (hn : captured n)
    (h : nodeSpan s.source s.lines n = .ok span) (chunkType : ChunkType) (name : Option String) :
    s.Origin captured (s.chunk span chunkType name) := by
  rw [hs] at h
  obtain ⟨hstart, hstop, hlines⟩ := nodeSpan_eq_ok h
  exact ⟨rfl, rfl, hlines, .inl ⟨n, hn, hstart, hstop⟩⟩

/-! ## Finds put together -/

/-- Two chunks are alike but for their names. -/
structure SameButName (c d : Chunk) : Prop where
  span_eq : c.span = d.span
  chunkType_eq : c.chunkType = d.chunkType
  path_eq : c.path = d.path
  language_eq : c.language = d.language

theorem SameButName.refl (c : Chunk) : SameButName c c :=
  ⟨rfl, rfl, rfl, rfl⟩

theorem SameButName.trans {a b c : Chunk} (h : SameButName a b) (h' : SameButName b c) :
    SameButName a c :=
  ⟨h.span_eq.trans h'.span_eq, h.chunkType_eq.trans h'.chunkType_eq, h.path_eq.trans h'.path_eq,
    h.language_eq.trans h'.language_eq⟩

theorem merge_sameButName (s : Setting) (current later : Chunk) :
    SameButName (s.merge current later) current ∨ SameButName (s.merge current later) later := by
  unfold merge
  split
  rename_i best other h
  split at h
  · obtain ⟨rfl, rfl⟩ := Prod.mk.inj h
    exact .inr ⟨rfl, rfl, rfl, rfl⟩
  · obtain ⟨rfl, rfl⟩ := Prod.mk.inj h
    exact .inl ⟨rfl, rfl, rfl, rfl⟩

/-- A find that is merged with an earlier one at its place stays at the place. -/
theorem range_merge (current later : Chunk) (h : current.span.range = later.span.range) :
    (s.merge current later).span.range = current.span.range := by
  rcases merge_sameButName s current later with hsame | hsame
  · rw [hsame.span_eq]
  · rw [hsame.span_eq, h]

theorem add_eq_gatherInto (c : Chunk) (found : List Chunk) :
    s.add c found = gatherInto (·.span.range) s.merge found c := by
  induction found with
  | nil => rfl
  | cons f rest ih =>
      rw [add, gatherInto]
      by_cases hsame : f.span.range = c.span.range
      · rw [if_pos (beq_iff_eq.mpr hsame), if_pos hsame]
      · rw [if_neg (fun h => hsame (beq_iff_eq.mp h)), if_neg hsame, ih]

/-- The finds of a file are gathered by their ranges. -/
theorem foldl_add (finds : List Chunk) :
    finds.foldl (fun found c => s.add c found) [] = gather (·.span.range) s.merge finds := by
  have hadd : (fun found c => s.add c found) = gatherInto (·.span.range) s.merge := by
    funext found c
    exact add_eq_gatherInto c found
  rw [hadd, gather]

theorem mem_collect_iff {finds : List Chunk} {d : Chunk} :
    d ∈ s.collect finds ↔ d ∈ gather (·.span.range) s.merge finds := by
  rw [collect, List.mem_mergeSort, foldl_add]

/-- What is collected is found, up to its name. -/
theorem exists_of_mem_collect {finds : List Chunk} {d : Chunk} (h : d ∈ s.collect finds) :
    ∃ f ∈ finds, SameButName d f := by
  have hsame := of_mem_gather range_merge (P := fun items d => ∃ f ∈ items, SameButName d f)
    (fun c => ⟨c, List.mem_singleton_self c, .refl c⟩) ?_ (mem_collect_iff.mp h)
  · obtain ⟨f, hf, hdf⟩ := hsame
    exact ⟨f, (List.mem_filter.mp hf).1, hdf⟩
  · rintro items d c ⟨f, hf, hdf⟩
    rcases merge_sameButName s d c with hd | hc
    · exact ⟨f, List.mem_append_left _ hf, hd.trans hdf⟩
    · exact ⟨c, List.mem_append_right _ (List.mem_singleton_self c), hc⟩

/-! ## The finds -/

/-- A typed node of a match is captured under a name that stands for its kind of code. -/
theorem exists_of_mem_typedNodes {captures : List Capture} {chunkType : ChunkType} {n : Node}
    (h : (chunkType, n) ∈ s.typedNodes (groupCaptures captures)) :
    ∃ c ∈ captures, c.node = n ∧ s.language.chunkTypeFor c.name = some chunkType := by
  obtain ⟨⟨name, nodes⟩, hgroup, h⟩ := List.mem_flatMap.mp (List.mem_filter.mp h).1
  simp only at h
  split at h
  · cases h
  · rename_i kind hkind
    obtain ⟨m, hm, heq⟩ := List.mem_map.mp h
    obtain ⟨rfl, rfl⟩ := Prod.mk.inj heq
    obtain ⟨c, hc, rfl, hnode⟩ := exists_of_mem_groupCaptures hgroup hm
    exact ⟨c, hc, hnode, hkind⟩

/-- The typed nodes of a match are those that it captures under names for kinds of code, without the
nodes that could not be parsed. -/
theorem mem_typedNodes_iff {captures : List Capture} {chunkType : ChunkType} {n : Node} :
    (chunkType, n) ∈ s.typedNodes (groupCaptures captures) ↔
      n.label.hasError = false ∧
        ∃ c ∈ captures, c.node = n ∧ s.language.chunkTypeFor c.name = some chunkType := by
  constructor
  · intro h
    exact ⟨Bool.not_eq_true' _ ▸ (List.mem_filter.mp h).2, exists_of_mem_typedNodes h⟩
  · rintro ⟨hparsed, c, hc, rfl, hkind⟩
    obtain ⟨nodes, hnodes, hmem⟩ := exists_mem_groupCaptures hc
    refine List.mem_filter.mpr ⟨List.mem_flatMap.mpr ⟨_, hnodes, ?_⟩, ?_⟩
    · simp only [hkind]
      exact List.mem_map_of_mem hmem
    · simp only [hparsed, Bool.not_false]

/-- A structural chunk is, up to its name, cut from a typed node of one of the matches. -/
theorem exists_of_mem_structuralOf {found : List (List Capture)} {chunks : List Chunk}
    (h : s.structuralOf found = .ok chunks) {c : Chunk} (hc : c ∈ chunks) :
    ∃ captures ∈ found, ∃ tagged ∈ s.typedNodes (groupCaptures captures), ∃ span name,
      nodeSpan s.source s.lines tagged.2 = .ok span ∧
        SameButName c (s.chunk span tagged.1 name) := by
  obtain ⟨finds, hfinds, h⟩ := bind_eq_ok_iff.mp h
  rw [← pure_eq_ok_iff.mp h] at hc
  obtain ⟨f, hf, hcf⟩ := exists_of_mem_collect hc
  obtain ⟨ofMatch, hofMatch, hf⟩ := List.mem_flatten.mp hf
  obtain ⟨captures, hcap, hok⟩ := exists_of_mem_mapM hfinds hofMatch
  obtain ⟨tagged, htagged, hf⟩ := exists_of_mem_mapM hok hf
  obtain ⟨span, hspan, hf⟩ := bind_eq_ok_iff.mp hf
  rw [← pure_eq_ok_iff.mp hf] at hcf
  exact ⟨captures, hcap, tagged, htagged, span, _, hspan, hcf⟩

/-- Structural chunks have their origin in captured nodes. -/
theorem structural_origin {queries : List Query} {root : Node} {found : List (List Capture)}
    {chunks : List Chunk} (hs : s.lines = LineMap.ofBytes s.source)
    (hfound : matchesOf queries root = .ok found) (h : s.structuralOf found = .ok chunks)
    {c : Chunk} (hc : c ∈ chunks) : s.Origin (s.Captured queries root) c := by
  obtain ⟨captures, hcap, ⟨chunkType, n⟩, htagged, span, name, hspan, hsame⟩ :=
    exists_of_mem_structuralOf h hc
  obtain ⟨k, hk, hkn, hkind⟩ := exists_of_mem_typedNodes htagged
  obtain ⟨query, hquery, ofQuery, hrun, hmem⟩ := exists_of_mem_matchesOf hfound hcap
  have hcaptured : s.Captured queries root n :=
    ⟨query, hquery, root, root.self_mem_preorder, ofQuery, hrun, captures, hmem, k, hk, hkn,
      Option.isSome_iff_exists.mpr ⟨chunkType, hkind⟩⟩
  exact (origin_of_nodeSpan hs hcaptured hspan _ _).congr hsame.span_eq hsame.path_eq
    hsame.language_eq

/-- The kind of a structural chunk is one that a capture name stands for. -/
theorem exists_chunkTypeFor_of_mem_structural {queries : Queries} {root : Node}
    {chunks : List Chunk} (h : s.structural queries root = .ok chunks) {c : Chunk}
    (hc : c ∈ chunks) : ∃ capture, s.language.chunkTypeFor capture = some c.chunkType := by
  obtain ⟨found, -, h⟩ := bind_eq_ok_iff.mp h
  obtain ⟨captures, -, tagged, htagged, span, name, -, hsame⟩ := exists_of_mem_structuralOf h hc
  obtain ⟨k, -, -, hkind⟩ := exists_of_mem_typedNodes htagged
  rw [hsame.chunkType_eq]
  exact ⟨k.name, hkind⟩

/-- A find of a block query is kept for its parent, and has its origin in a node below the scope. -/
theorem blockFinds_origin {queries : List Query} {root scope : Node} {parents : List Chunk}
    {parent : Chunk} {query : Query} {finds : List Chunk} (hs : s.lines = LineMap.ofBytes s.source)
    (hscope : scope ∈ root.preorder) (hquery : query ∈ queries)
    (h : s.blockFinds parents parent scope query = .ok finds) {f : Chunk} (hf : f ∈ finds) :
    s.keepsBlock parents parent f.span = true ∧ s.Origin (s.Captured queries root) f := by
  obtain ⟨found, hfound, h⟩ := bind_eq_ok_iff.mp h
  obtain ⟨spans, hspans, h⟩ := bind_eq_ok_iff.mp h
  rw [← pure_eq_ok_iff.mp h] at hf
  obtain ⟨⟨chunkType, span⟩, hmem, rfl⟩ := List.mem_map.mp hf
  obtain ⟨hmem, hkeeps⟩ := List.mem_filter.mp hmem
  obtain ⟨⟨kind, n⟩, hn, hnode⟩ := exists_of_mem_mapM hspans hmem
  obtain ⟨span', hspan, hnode⟩ := bind_eq_ok_iff.mp hnode
  obtain ⟨rfl, rfl⟩ := Prod.mk.inj (pure_eq_ok_iff.mp hnode)
  obtain ⟨k, hk, hkn, hkind⟩ := exists_of_mem_typedNodes hn
  obtain ⟨captures, hcap, hk⟩ := List.mem_flatten.mp hk
  have hcaptured : s.Captured queries root n :=
    ⟨query, hquery, scope, hscope, found, mapError_eq_ok_iff.mp hfound, captures, hcap, k, hk, hkn,
      Option.isSome_iff_exists.mpr ⟨_, hkind⟩⟩
  exact ⟨hkeeps, origin_of_nodeSpan hs hcaptured hspan _ _⟩

/-- A block is, up to its name, a find of a block query inside one of the parents. -/
theorem exists_of_mem_blocks {queries : Queries} {root : Node} {parents chunks : List Chunk}
    (h : s.blocks queries root parents = .ok chunks) {c : Chunk} (hc : c ∈ chunks) :
    ∃ parent ∈ parents, ∃ scope ∈ root.preorder, ∃ query ∈ queries.blocks, ∃ finds,
      s.blockFinds parents parent scope query = .ok finds ∧ ∃ f ∈ finds, SameButName c f := by
  obtain ⟨finds, hfinds, h⟩ := bind_eq_ok_iff.mp h
  rw [← pure_eq_ok_iff.mp h] at hc
  obtain ⟨f, hf, hcf⟩ := exists_of_mem_collect hc
  obtain ⟨ofParent, hofParent, hf⟩ := List.mem_flatten.mp hf
  obtain ⟨parent, hparent, hok⟩ := exists_of_mem_mapM hfinds hofParent
  simp only at hok
  split at hok
  · rw [← Except.ok.inj hok] at hf
    cases hf
  · rename_i scope hscope
    obtain ⟨ofQueries, hofQueries, hflat⟩ := map_eq_ok_iff.mp hok
    rw [← hflat] at hf
    obtain ⟨ofQuery, hofQuery, hf⟩ := List.mem_flatten.mp hf
    obtain ⟨query, hquery, hrun⟩ := exists_of_mem_mapM hofQueries hofQuery
    exact ⟨parent, hparent, scope, Node.covering?_mem_preorder hscope, query, hquery, ofQuery, hrun,
      f, hf, hcf⟩

/-- Blocks have their origin in captured nodes. -/
theorem blocks_origin {queries : Queries} {root : Node} {parents chunks : List Chunk}
    (hs : s.lines = LineMap.ofBytes s.source) (h : s.blocks queries root parents = .ok chunks)
    {c : Chunk} (hc : c ∈ chunks) : s.Origin (s.Captured queries.blocks root) c := by
  obtain ⟨parent, -, scope, hscope, query, hquery, finds, hrun, f, hf, hcf⟩ :=
    exists_of_mem_blocks h hc
  exact (blockFinds_origin hs hscope hquery hrun hf).2.congr hcf.span_eq hcf.path_eq hcf.language_eq

/-- A block is one of the file, inside one of the parents and at the place of none. -/
theorem keepsBlock_of_mem_blocks {queries : Queries} {root : Node} {parents chunks : List Chunk}
    (hs : s.lines = LineMap.ofBytes s.source) (h : s.blocks queries root parents = .ok chunks)
    {c : Chunk} (hc : c ∈ chunks) :
    ∃ parent ∈ parents, s.keepsBlock parents parent c.span = true := by
  obtain ⟨parent, hparent, scope, hscope, query, hquery, finds, hrun, f, hf, hcf⟩ :=
    exists_of_mem_blocks h hc
  obtain ⟨hkeeps, -⟩ := blockFinds_origin hs hscope hquery hrun hf
  rw [hcf.span_eq]
  exact ⟨parent, hparent, hkeeps⟩

/-- What is kept inside a parent lies inside it, and is at the place of no parent. -/
theorem contains_of_keepsBlock {parents : List Chunk} {parent : Chunk} {span : Span}
    (h : s.keepsBlock parents parent span = true) :
    parent.span.contains span = true ∧ ∀ p ∈ parents, p.span.range ≠ span.range := by
  simp only [keepsBlock, Bool.and_eq_true, Bool.not_eq_true', List.any_eq_false, beq_iff_eq] at h
  obtain ⟨⟨⟨⟨hnew, hinside⟩, -⟩, -⟩, -⟩ := h
  exact ⟨hinside, hnew⟩

/-- A block is at the place of no parent. -/
theorem range_ne_of_mem_blocks {queries : Queries} {root : Node} {parents chunks : List Chunk}
    (hs : s.lines = LineMap.ofBytes s.source) (h : s.blocks queries root parents = .ok chunks)
    {c p : Chunk} (hc : c ∈ chunks) (hp : p ∈ parents) : p.span.range ≠ c.span.range := by
  obtain ⟨parent, -, hkeeps⟩ := keepsBlock_of_mem_blocks hs h hc
  exact (contains_of_keepsBlock hkeeps).2 p hp

/-- A block lies inside one of the parents and is smaller. -/
theorem exists_parent_of_mem_blocks {queries : Queries} {root : Node} {parents chunks : List Chunk}
    (hs : s.lines = LineMap.ofBytes s.source) (h : s.blocks queries root parents = .ok chunks)
    {c : Chunk} (hc : c ∈ chunks) : ∃ p ∈ parents, p.span.strictlyContains c.span = true := by
  obtain ⟨parent, hparent, hkeeps⟩ := keepsBlock_of_mem_blocks hs h hc
  obtain ⟨hinside, hnew⟩ := contains_of_keepsBlock hkeeps
  refine ⟨parent, hparent, ?_⟩
  rw [Span.strictlyContains, hinside, Bool.true_and, bne_iff_ne]
  exact hnew parent hparent

/-- The whole file is its own origin. -/
theorem wholeFile_origin {captured : Node → Prop} {c : Chunk}
    (hs : s.lines = LineMap.ofBytes s.source) (h : s.wholeFile = .ok c) : s.Origin captured c := by
  obtain ⟨span, hspan, h⟩ := bind_eq_ok_iff.mp h
  rw [hs] at hspan
  obtain ⟨hstart, hstop, hlines⟩ := LineMap.span_eq_ok (mapError_eq_ok_iff.mp hspan)
  rw [← pure_eq_ok_iff.mp h]
  refine ⟨rfl, rfl, hlines, .inr (Prod.ext ?_ ?_)⟩
  · exact (Int.ofNat.inj hstart).symm
  · exact (Int.ofNat.inj hstop).symm

end Setting

end CodeChallenges.Candidates

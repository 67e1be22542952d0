import CodeChallenges.Proofs.Candidates
/-!
# Candidates can always be told

The offsets of a node are the only thing about a tree that can make the candidates of a file fail:
they may have no place in the file, or cut a character in two.  If every node of the tree is a range
between two characters, each step from the queries to the chunks has a result.
-/

namespace CodeChallenges.Candidates

open CodeChallenges.Tree

/-- A node that is a range of the source has a span. -/
theorem exists_nodeSpan_eq_ok {source : List UInt8} {root n : Node}
    (hroot : root.Within source.length) (hn : n ∈ root.preorder) :
    ∃ span, nodeSpan source (LineMap.ofBytes source) n = .ok span := by
  obtain ⟨hle, hstop⟩ := hroot n hn
  have hline := lineStart_le source (Nat.le_trans hle hstop)
  have hstart : lineStart? source n.start = .ok (lineStart source n.start) :=
    lineStart?_natCast_eq_ok_iff.mpr ⟨Nat.le_trans hle hstop, rfl⟩
  obtain ⟨span, hspan⟩ := LineMap.exists_span_eq_ok (Nat.le_trans hline hle) hstop
  refine ⟨span, bind_eq_ok_iff.mpr ⟨_, mapError_eq_ok_iff.mpr hstart, ?_⟩⟩
  exact mapError_eq_ok_iff.mpr hspan

theorem exists_matchesOf_eq_ok {source : List UInt8} {queries : List Query} {root : Node}
    (hqueries : ∀ query ∈ queries, query.Answers source) (hroot : root.OnBoundaries source) :
    ∃ found, matchesOf queries root = .ok found := by
  refine exists_bind_eq_ok (exists_mapM_eq_ok ?_) fun found _ => ⟨_, rfl⟩
  intro query hquery
  exact exists_mapError_eq_ok (hqueries query hquery root hroot)

/-- The matches of local queries name nodes of the tree. -/
theorem mem_preorder_of_matchesOf {queries : List Query} {root : Node} {found : List (List Capture)}
    (hlocal : ∀ query ∈ queries, query.Local) (hfound : matchesOf queries root = .ok found) :
    ∀ captures ∈ found, ∀ c ∈ captures, c.node ∈ root.preorder := by
  intro captures hcap c hc
  obtain ⟨query, hquery, ofQuery, hrun, hmem⟩ := exists_of_mem_matchesOf hfound hcap
  exact hlocal query hquery root ofQuery hrun captures hmem c hc

namespace Setting

variable {s : Setting} {root : Node}

/-- The typed nodes of a match have spans. -/
theorem exists_nodeSpan_of_mem_typedNodes {captures : List Capture}
    (hs : s.lines = LineMap.ofBytes s.source) (hroot : root.Within s.source.length)
    (hnodes : ∀ c ∈ captures, c.node ∈ root.preorder) {tagged : ChunkType × Node}
    (htagged : tagged ∈ s.typedNodes (groupCaptures captures)) :
    ∃ span, nodeSpan s.source s.lines tagged.2 = .ok span := by
  obtain ⟨c, hc, hnode, -⟩ := exists_of_mem_typedNodes htagged
  rw [hs, ← hnode]
  exact exists_nodeSpan_eq_ok hroot (hnodes c hc)

theorem exists_structuralOf_eq_ok {found : List (List Capture)}
    (hs : s.lines = LineMap.ofBytes s.source) (hroot : root.Within s.source.length)
    (hnodes : ∀ captures ∈ found, ∀ c ∈ captures, c.node ∈ root.preorder) :
    ∃ chunks, s.structuralOf found = .ok chunks := by
  refine exists_bind_eq_ok (exists_mapM_eq_ok ?_) fun finds _ => ⟨_, rfl⟩
  intro captures hcap
  refine exists_mapM_eq_ok fun tagged htagged => ?_
  refine exists_bind_eq_ok ?_ fun span _ => ⟨_, rfl⟩
  exact exists_nodeSpan_of_mem_typedNodes hs hroot (hnodes captures hcap) htagged

theorem exists_blockFinds_eq_ok {parents : List Chunk} {parent : Chunk} {scope : Node}
    {query : Query} (hs : s.lines = LineMap.ofBytes s.source) (hscope : scope.OnBoundaries s.source)
    (hlocal : query.Local) (hquery : query.Answers s.source) :
    ∃ finds, s.blockFinds parents parent scope query = .ok finds := by
  refine exists_bind_eq_ok (exists_mapError_eq_ok (hquery scope hscope)) fun found hfound => ?_
  have hnodes : ∀ c ∈ found.flatten, c.node ∈ scope.preorder := by
    intro c hc
    obtain ⟨captures, hcap, hc⟩ := List.mem_flatten.mp hc
    exact hlocal scope found (mapError_eq_ok_iff.mp hfound) captures hcap c hc
  refine exists_bind_eq_ok (exists_mapM_eq_ok fun tagged htagged => ?_) fun spans _ => ⟨_, rfl⟩
  refine exists_bind_eq_ok ?_ fun span _ => ⟨_, rfl⟩
  exact exists_nodeSpan_of_mem_typedNodes hs hscope.within hnodes htagged

theorem exists_blocks_eq_ok {queries : Queries} (hs : s.lines = LineMap.ofBytes s.source)
    (hroot : root.OnBoundaries s.source) (hlocal : ∀ query ∈ queries.blocks, query.Local)
    (hqueries : ∀ query ∈ queries.blocks, query.Answers s.source) (parents : List Chunk) :
    ∃ chunks, s.blocks queries root parents = .ok chunks := by
  refine exists_bind_eq_ok (exists_mapM_eq_ok fun parent _ => ?_) fun finds _ => ⟨_, rfl⟩
  dsimp only
  split
  · exact ⟨[], rfl⟩
  · rename_i scope hscope
    have hin := hroot.of_mem_preorder (Node.covering?_mem_preorder hscope)
    refine exists_map_eq_ok (exists_mapM_eq_ok fun query hquery => ?_)
    exact exists_blockFinds_eq_ok hs hin (hlocal query hquery) (hqueries query hquery)

theorem exists_wholeFile_eq_ok (hs : s.lines = LineMap.ofBytes s.source) :
    ∃ chunk, s.wholeFile = .ok chunk := by
  refine exists_bind_eq_ok (exists_mapError_eq_ok ?_) fun span _ => ⟨_, rfl⟩
  rw [hs]
  exact LineMap.exists_span_eq_ok (Nat.zero_le s.source.length) (Nat.le_refl _)

end Setting

end CodeChallenges.Candidates

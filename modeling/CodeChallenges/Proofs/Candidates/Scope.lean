import CodeChallenges.Proofs.Candidates.Structural
import CodeChallenges.Proofs.Tree.KindPattern
/-!
# Blocks are looked for where they can be

The blocks inside a parent are looked for below the innermost node that the search for the parent
reaches, which begins at a line start and so need not be a node.  A block that is kept has bytes, lies
inside the parent and is not the parent; the search in a nested tree loses no such node, so that the
search of the whole tree has the same answer (`blockFinds_covering`).  This answer is one block for
each span of a node that a block query names and that fits (`AreBlocks`).
-/

namespace CodeChallenges.Candidates

open CodeChallenges.Tree

namespace Setting

variable {s : Setting} {root : Node} {parents : List Chunk} {parent : Chunk}

/-! ## The search below a scope -/

/-- The nodes under one name, with the kind of code that the name stands for; nodes that could not be
parsed are left out. -/
def typedAs (s : Setting) (capture : String) (nodes : List Node) : List (ChunkType × Node) :=
  match s.language.chunkTypeFor capture with
  | none => []
  | some chunkType => (nodes.filter (!·.label.hasError)).map (chunkType, ·)

theorem typedNodes_of_one_name (capture : String) (nodes : List Node) :
    s.typedNodes (groupCaptures (nodes.map (Capture.mk capture))) = s.typedAs capture nodes := by
  rw [groupCaptures_of_one_name, typedAs]
  split
  · rename_i hnil
    rw [hnil]
    split <;> rfl
  · rw [typedNodes, taggedNodes, List.flatMap_cons, List.flatMap_nil, List.append_nil]
    dsimp only
    cases s.language.chunkTypeFor capture with
    | none => rfl
    | some chunkType => exact List.filter_map

theorem filter_typedAs (capture : String) (nodes : List Node) (p : Node → Bool) :
    (s.typedAs capture nodes).filter (p ·.2) = s.typedAs capture (nodes.filter p) := by
  rw [typedAs, typedAs]
  cases s.language.chunkTypeFor capture with
  | none => rfl
  | some chunkType =>
      simp only
      rw [List.filter_map, List.filter_filter, List.filter_filter]
      congr 2
      funext n
      exact Bool.and_comm _ _

theorem mem_of_mem_typedAs {capture : String} {nodes : List Node} {tagged : ChunkType × Node}
    (h : tagged ∈ s.typedAs capture nodes) : tagged.2 ∈ nodes := by
  rw [typedAs] at h
  split at h
  · cases h
  · obtain ⟨n, hn, rfl⟩ := List.mem_map.mp h
    exact (List.mem_filter.mp hn).1

/-- Whether a node has bytes, lies inside a range and is not the range. -/
def liesInside (start stop : Nat) (n : Node) : Bool :=
  start ≤ n.start && n.start < n.stop && n.stop ≤ stop && !(n.start == start && n.stop == stop)

theorem liesInside_iff {start stop : Nat} {n : Node} :
    liesInside start stop n = true ↔
      start ≤ n.start ∧ n.start < n.stop ∧ n.stop ≤ stop ∧ ¬ (n.start = start ∧ n.stop = stop) := by
  simp only [liesInside, Bool.and_eq_true, decide_eq_true_eq, Bool.not_eq_true', and_assoc,
    Bool.and_eq_false_iff, beq_eq_false_iff_ne]
  tauto

theorem keepsBlock_iff {span : Span} :
    s.keepsBlock parents parent span = true ↔
      (∀ p ∈ parents, p.span.range ≠ span.range) ∧ parent.span.contains span = true ∧
        2 ≤ span.lineCount ∧
        30 ≤ (Text.Utf8.decodeLossy (slice s.source span.start span.stop)).length ∧
        (Text.Utf8.decodeLossy (slice s.source span.start span.stop)).length ≤ 2000 := by
  simp only [keepsBlock, Bool.and_eq_true, Bool.not_eq_true', List.any_eq_false, beq_iff_eq,
    decide_eq_true_eq, and_assoc]
  rfl

/-- The node of a kept block lies inside the parent. -/
theorem liesInside_of_keepsBlock {n : Node} {span : Span} (hparent : parent ∈ parents)
    (hs : s.lines = LineMap.ofBytes s.source) (hle : n.start ≤ n.stop)
    (hstop : n.stop ≤ s.source.length) (hspan : nodeSpan s.source s.lines n = .ok span)
    (hkeeps : s.keepsBlock parents parent span = true) :
    liesInside parent.span.start parent.span.stop n = true := by
  obtain ⟨hnew, hinside, hlines, -⟩ := keepsBlock_iff.mp hkeeps
  rw [hs] at hspan
  obtain ⟨hspanStart, hspanStop, honLines⟩ := nodeSpan_eq_ok hspan
  have hline := lineStart_le s.source (Nat.le_trans hle hstop)
  simp only [Span.contains, Bool.and_eq_true, decide_eq_true_eq] at hinside
  refine liesInside_iff.mpr ⟨by omega, ?_, by omega, ?_⟩
  · refine Nat.lt_of_le_of_ne hle fun heq => ?_
    have hone := honLines.lineCount_of_indentation hstop (heq ▸ hspanStart) hspanStop
    omega
  · -- The line start of a node at the start of the parent is this start.
    rintro ⟨hstartEq, hstopEq⟩
    refine hnew parent hparent (Prod.ext ?_ ?_)
    · show parent.span.start = span.start
      omega
    · show parent.span.stop = span.stop
      omega

/-- What a typed node says of a block. -/
def typedSpan (s : Setting) (tagged : ChunkType × Node) : Except Fault (ChunkType × Span) := do
  return (tagged.1, ← nodeSpan s.source s.lines tagged.2)

theorem exists_typedSpans_eq_ok (hs : s.lines = LineMap.ofBytes s.source)
    (hroot : root.Within s.source.length) {nodes : List Node} (hnodes : nodes ⊆ root.preorder)
    (capture : String) : ∃ spans, (s.typedAs capture nodes).mapM s.typedSpan = .ok spans := by
  refine exists_mapM_eq_ok fun tagged htagged => exists_bind_eq_ok ?_ fun span _ => ⟨_, rfl⟩
  rw [hs]
  exact exists_nodeSpan_eq_ok hroot (hnodes (mem_of_mem_typedAs htagged))

/-- The finds of a query for one kind. -/
theorem blockFinds_forKind {query : Query} {kind capture : String}
    (hquery : query.IsForKind kind capture) (scope : Node) {spans : List (ChunkType × Span)}
    (hspans : (s.typedAs capture (scope.preorder.filter (NodeTest.ofKind kind).accepts)).mapM
      s.typedSpan = .ok spans) :
    s.blockFinds parents parent scope query =
      .ok ((spans.filter (s.keepsBlock parents parent ·.2)).map fun (chunkType, span) =>
        s.chunk span chunkType none) := by
  have hflat : ∀ nodes : List Node,
      (nodes.map fun n => [Capture.mk capture n]).flatten = nodes.map (Capture.mk capture) := by
    intro nodes
    induction nodes with
    | nil => rfl
    | cons n nodes ih => rw [List.map_cons, List.flatten_cons, ih, List.map_cons, List.singleton_append]
  refine bind_eq_ok_iff.mpr ⟨_, mapError_eq_ok_iff.mpr (hquery scope), ?_⟩
  rw [hflat, typedNodes_of_one_name]
  exact bind_eq_ok_iff.mpr ⟨spans, hspans, rfl⟩

/-- **The search below the node that the search for a parent reaches** finds the blocks inside the
parent that the search of the whole tree finds. -/
theorem blockFinds_covering {query : Query} {kind capture : String}
    (hquery : query.IsForKind kind capture) (hs : s.lines = LineMap.ofBytes s.source)
    (hnested : root.Nested) (hstop : root.stop ≤ s.source.length) (hparent : parent ∈ parents) :
    ∃ finds,
      s.blockFinds parents parent (root.covering parent.span.start parent.span.stop) query =
        .ok finds ∧
      s.blockFinds parents parent root query = .ok finds := by
  have hroot := hnested.within hstop
  have hscope : (root.covering parent.span.start parent.span.stop).preorder ⊆ root.preorder :=
    fun n hn => Node.preorder_trans (Node.covering_mem_preorder _ _ root) hn
  -- Below any node of the tree, the kept spans are those of the nodes inside the parent.
  have hkept : ∀ nodes ⊆ root.preorder, ∃ spans fewer,
      (s.typedAs capture nodes).mapM s.typedSpan = .ok spans ∧
      (s.typedAs capture (nodes.filter (liesInside parent.span.start parent.span.stop))).mapM
        s.typedSpan = .ok fewer ∧
      fewer.filter (s.keepsBlock parents parent ·.2) =
        spans.filter (s.keepsBlock parents parent ·.2) := by
    intro nodes hnodes
    obtain ⟨spans, hspans⟩ := exists_typedSpans_eq_ok hs hroot hnodes capture
    have hinside : ∀ tagged ∈ s.typedAs capture nodes, ∀ spanned, s.typedSpan tagged = .ok spanned →
        s.keepsBlock parents parent spanned.2 = true →
          liesInside parent.span.start parent.span.stop tagged.2 = true := by
      intro tagged htagged spanned hspanned hkeeps
      obtain ⟨span, hspan, h⟩ := bind_eq_ok_iff.mp hspanned
      rw [← pure_eq_ok_iff.mp h] at hkeeps
      obtain ⟨hle, hin⟩ := hroot tagged.2 (hnodes (mem_of_mem_typedAs htagged))
      exact liesInside_of_keepsBlock hparent hs hle hin hspan hkeeps
    obtain ⟨fewer, hfewer, heq⟩ := exists_filter_of_mapM hspans hinside
    rw [filter_typedAs] at hfewer
    exact ⟨spans, fewer, hspans, hfewer, heq⟩
  have hsame : ((root.covering parent.span.start parent.span.stop).preorder.filter
        (NodeTest.ofKind kind).accepts).filter (liesInside parent.span.start parent.span.stop) =
      (root.preorder.filter (NodeTest.ofKind kind).accepts).filter
        (liesInside parent.span.start parent.span.stop) := by
    rw [List.filter_filter, List.filter_filter]
    refine hnested.filter_preorder_covering fun n _ hn => ?_
    rw [Bool.and_eq_true] at hn
    exact liesInside_iff.mp hn.1
  obtain ⟨spans, fewer, hspans, hfewer, heq⟩ := hkept _ fun n hn =>
    hscope (List.mem_filter.mp hn).1
  obtain ⟨spans', fewer', hspans', hfewer', heq'⟩ := hkept _ fun n hn => (List.mem_filter.mp hn).1
  rw [hsame, hfewer'] at hfewer
  rw [← Except.ok.inj hfewer, heq'] at heq
  exact ⟨_, blockFinds_forKind hquery _ hspans, by rw [blockFinds_forKind hquery root hspans', heq]⟩

/-! ## The search of the whole tree -/

/-- A node that could be parsed is named as a kind of code by a match of one of the queries in the
tree. -/
def FoundAs (s : Setting) (queries : List Query) (root : Node) (chunkType : ChunkType) (n : Node) :
    Prop :=
  n.label.hasError = false ∧ ∃ query ∈ queries, ∃ found, query root = .ok found ∧
    ∃ captures ∈ found, ∃ c ∈ captures, c.node = n ∧ s.language.chunkTypeFor c.name = some chunkType

/-- A span fits as a block: it lies inside one of the parents and is none of them, it touches two
lines or more, and it has 30 to 2000 characters. -/
structure Fits (s : Setting) (parents : List Chunk) (span : Span) : Prop where
  inside : ∃ p ∈ parents, p.span.contains span = true
  apart : ∀ p ∈ parents, p.span.range ≠ span.range
  lines : 2 ≤ span.lineCount
  least : 30 ≤ (Text.Utf8.decodeLossy (slice s.source span.start span.stop)).length
  most : (Text.Utf8.decodeLossy (slice s.source span.start span.stop)).length ≤ 2000

theorem exists_keepsBlock_iff {span : Span} :
    (∃ p ∈ parents, s.keepsBlock parents p span = true) ↔ s.Fits parents span := by
  constructor
  · rintro ⟨p, hp, hkeeps⟩
    obtain ⟨hapart, hinside, hlines, hleast, hmost⟩ := keepsBlock_iff.mp hkeeps
    exact ⟨⟨p, hp, hinside⟩, hapart, hlines, hleast, hmost⟩
  · rintro ⟨⟨p, hp, hinside⟩, hapart, hlines, hleast, hmost⟩
    exact ⟨p, hp, keepsBlock_iff.mpr ⟨hapart, hinside, hlines, hleast, hmost⟩⟩

/-- The finds of a query inside a parent are the kept spans of the nodes that the query names. -/
theorem mem_blockFinds_iff {query : Query} {finds : List Chunk}
    (h : s.blockFinds parents parent root query = .ok finds) {f : Chunk} :
    f ∈ finds ↔ ∃ chunkType n span, s.FoundAs [query] root chunkType n ∧
      nodeSpan s.source s.lines n = .ok span ∧ s.keepsBlock parents parent span = true ∧
      s.chunk span chunkType none = f := by
  obtain ⟨found, hfound, h⟩ := bind_eq_ok_iff.mp h
  obtain ⟨spans, hspans, h⟩ := bind_eq_ok_iff.mp h
  have hrun : query root = .ok found := mapError_eq_ok_iff.mp hfound
  have hnamed : ∀ chunkType n, (chunkType, n) ∈ s.typedNodes (groupCaptures found.flatten) ↔
      s.FoundAs [query] root chunkType n := by
    intro chunkType n
    rw [mem_typedNodes_iff, FoundAs]
    refine and_congr_right fun _ => ⟨?_, ?_⟩
    · rintro ⟨c, hc, hnode, hkind⟩
      obtain ⟨captures, hcap, hc⟩ := List.mem_flatten.mp hc
      exact ⟨query, List.mem_singleton_self query, found, hrun, captures, hcap, c, hc, hnode, hkind⟩
    · rintro ⟨query', hquery', found', hrun', captures, hcap, c, hc, hnode, hkind⟩
      rw [List.mem_singleton.mp hquery', hrun] at hrun'
      rw [← Except.ok.inj hrun'] at hcap
      exact ⟨c, List.mem_flatten.mpr ⟨captures, hcap, hc⟩, hnode, hkind⟩
  rw [← pure_eq_ok_iff.mp h]
  constructor
  · intro hf
    obtain ⟨⟨chunkType, span⟩, hmem, hchunk⟩ := List.mem_map.mp hf
    obtain ⟨hmem, hkeeps⟩ := List.mem_filter.mp hmem
    obtain ⟨⟨chunkType', n⟩, htyped, hstep⟩ := exists_of_mem_mapM hspans hmem
    obtain ⟨span', hspan, hpair⟩ := bind_eq_ok_iff.mp hstep
    obtain ⟨rfl, rfl⟩ := Prod.mk.inj (pure_eq_ok_iff.mp hpair)
    exact ⟨_, n, _, (hnamed _ n).mp htyped, hspan, hkeeps, hchunk⟩
  · rintro ⟨chunkType, n, span, hfoundAs, hspan, hkeeps, rfl⟩
    obtain ⟨spanned, hmem, hstep⟩ := exists_mem_of_mapM hspans ((hnamed chunkType n).mpr hfoundAs)
    obtain ⟨span', hspan', hpair⟩ := bind_eq_ok_iff.mp hstep
    rw [hspan] at hspan'
    rw [← pure_eq_ok_iff.mp hpair, ← Except.ok.inj hspan'] at hmem
    exact List.mem_map.mpr ⟨_, List.mem_filter.mpr ⟨hmem, hkeeps⟩, rfl⟩

/-- The search of the whole tree for each parent collects the spans that fit of the nodes that are
named. -/
theorem exists_finds_of_blocksWithin {queries : Queries} {blocks : List Chunk}
    (h : s.blocksWithin queries (fun _ => some root) parents = .ok blocks) :
    ∃ finds, blocks = s.collect finds ∧ ∀ f, f ∈ finds ↔
      ∃ chunkType n span, s.FoundAs queries.blocks root chunkType n ∧
        nodeSpan s.source s.lines n = .ok span ∧ s.Fits parents span ∧
        s.chunk span chunkType none = f := by
  obtain ⟨found, hfound, h⟩ := bind_eq_ok_iff.mp h
  refine ⟨found.flatten, (pure_eq_ok_iff.mp h).symm, fun f => ?_⟩
  constructor
  · intro hf
    obtain ⟨ofParent, hofParent, hf⟩ := List.mem_flatten.mp hf
    obtain ⟨p, hp, hok⟩ := exists_of_mem_mapM hfound hofParent
    obtain ⟨ofQueries, hofQueries, rfl⟩ := map_eq_ok_iff.mp hok
    obtain ⟨ofQuery, hofQuery, hf⟩ := List.mem_flatten.mp hf
    obtain ⟨query, hquery, hrun⟩ := exists_of_mem_mapM hofQueries hofQuery
    obtain ⟨chunkType, n, span, ⟨hparsed, query', hquery', hfoundAs⟩, hspan, hkeeps, hchunk⟩ :=
      (mem_blockFinds_iff hrun).mp hf
    rw [List.mem_singleton.mp hquery'] at hfoundAs
    exact ⟨chunkType, n, span, ⟨hparsed, query, hquery, hfoundAs⟩, hspan,
      exists_keepsBlock_iff.mp ⟨p, hp, hkeeps⟩, hchunk⟩
  · rintro ⟨chunkType, n, span, ⟨hparsed, query, hquery, hfoundAs⟩, hspan, hfits, hchunk⟩
    obtain ⟨p, hp, hkeeps⟩ := exists_keepsBlock_iff.mpr hfits
    obtain ⟨ofParent, hofParent, hok⟩ := exists_mem_of_mapM hfound hp
    obtain ⟨ofQueries, hofQueries, rfl⟩ := map_eq_ok_iff.mp hok
    obtain ⟨ofQuery, hofQuery, hrun⟩ := exists_mem_of_mapM hofQueries hquery
    have hf : f ∈ ofQuery := (mem_blockFinds_iff hrun).mpr ⟨chunkType, n, span,
      ⟨hparsed, query, List.mem_singleton_self query, hfoundAs⟩, hspan, hkeeps, hchunk⟩
    exact List.mem_flatten.mpr ⟨_, hofParent, List.mem_flatten.mpr ⟨ofQuery, hofQuery, hf⟩⟩

/-- A span reaches from the line start of a node to its end. -/
def Reaches (s : Setting) (span : Span) (n : Node) : Prop :=
  span.range = (lineStart s.source n.start, n.stop)

/-- Some chunks are the blocks of a tree inside some parents. -/
structure AreBlocks (s : Setting) (queries : List Query) (root : Node) (parents : List Chunk)
    (blocks : List Chunk) : Prop where
  /-- They stand in strictly ascending order of start, and end from the back. -/
  ascending : blocks.Pairwise (fun a b => a.span.key < b.span.key)
  /-- Their spans are those that fit of the nodes that a query names as a kind of code. -/
  span_iff : ∀ span, (∃ c ∈ blocks, c.span = span) ↔ span.OnLinesOf s.source ∧
    s.Fits parents span ∧ ∃ chunkType n, s.FoundAs queries root chunkType n ∧ s.Reaches span n
  /-- Each is of a kind of least rank among those for the nodes at its span. -/
  kind : ∀ c ∈ blocks, (∃ n, s.FoundAs queries root c.chunkType n ∧ s.Reaches c.span n) ∧
    ∀ chunkType n, s.FoundAs queries root chunkType n → s.Reaches c.span n →
      s.language.rank c.chunkType ≤ s.language.rank chunkType
  /-- Each is of this file and has no name. -/
  origin : ∀ c ∈ blocks, c.path = s.path ∧ c.language = s.language.name ∧ c.name = none

/-- **The search of the whole tree** tells its blocks. -/
theorem areBlocks_of_blocksWithin {queries : Queries} {blocks : List Chunk}
    (hs : s.lines = LineMap.ofBytes s.source) (hroot : root.Within s.source.length)
    (hlocal : ∀ query ∈ queries.blocks, query.Local)
    (h : s.blocksWithin queries (fun _ => some root) parents = .ok blocks) :
    s.AreBlocks queries.blocks root parents blocks := by
  obtain ⟨finds, rfl, hfinds⟩ := exists_finds_of_blocksWithin h
  have hspanOf : ∀ {chunkType n}, s.FoundAs queries.blocks root chunkType n →
      ∃ span, nodeSpan s.source s.lines n = .ok span := by
    rintro chunkType n ⟨-, query, hquery, found, hrun, captures, hcap, c, hc, rfl, -⟩
    rw [hs]
    exact exists_nodeSpan_eq_ok hroot (hlocal query hquery root found hrun captures hcap c hc)
  have hreaches : ∀ {n span}, nodeSpan s.source s.lines n = .ok span →
      s.Reaches span n ∧ span.OnLinesOf s.source := by
    intro n span hspan
    rw [hs] at hspan
    obtain ⟨hstart, hstop, hlines⟩ := nodeSpan_eq_ok hspan
    exact ⟨Prod.ext hstart hstop, hlines⟩
  -- Every collected chunk is, but for its name, a find.
  have hfrom : ∀ c ∈ s.collect finds, ∃ chunkType n span,
      s.FoundAs queries.blocks root chunkType n ∧ nodeSpan s.source s.lines n = .ok span ∧
        s.Fits parents span ∧ SameButName c (s.chunk span chunkType none) := by
    intro c hc
    obtain ⟨f, hf, hsame⟩ := exists_of_mem_collect hc
    obtain ⟨chunkType, n, span, hfoundAs, hspan, hfits, rfl⟩ := (hfinds f).mp hf
    exact ⟨chunkType, n, span, hfoundAs, hspan, hfits, hsame⟩
  refine ⟨collect_ascending finds, ?_, ?_, ?_⟩
  · intro span
    constructor
    · rintro ⟨c, hc, rfl⟩
      obtain ⟨chunkType, n, span, hfoundAs, hspan, hfits, hsame⟩ := hfrom c hc
      obtain ⟨hreach, hlines⟩ := hreaches hspan
      rw [hsame.span_eq]
      exact ⟨hlines, hfits, chunkType, n, hfoundAs, hreach⟩
    · rintro ⟨hlines, hfits, chunkType, n, hfoundAs, hreach⟩
      obtain ⟨span', hspan'⟩ := hspanOf hfoundAs
      obtain ⟨hreach', hlines'⟩ := hreaches hspan'
      have heq : span' = span := hlines'.eq_of_range_eq hlines (hreach'.trans hreach.symm)
      obtain ⟨d, hd, hrange⟩ := exists_mem_collect
        ((hfinds _).mpr ⟨chunkType, n, span', hfoundAs, hspan', heq ▸ hfits, rfl⟩)
      obtain ⟨chunkType', n', span'', -, hspan'', -, hsame⟩ := hfrom d hd
      refine ⟨d, hd, ?_⟩
      rw [hsame.span_eq] at hrange ⊢
      exact (hreaches hspan'').2.eq_of_range_eq hlines (hrange.trans (heq ▸ rfl))
  · intro c hc
    obtain ⟨chunkType, n, span, hfoundAs, hspan, hfits, hsame⟩ := hfrom c hc
    obtain ⟨hreach, hlines⟩ := hreaches hspan
    obtain ⟨winner, hleads, hwinner, -, -⟩ := condenses_of_mem_collect hc
    refine ⟨⟨n, hsame.chunkType_eq ▸ hfoundAs, hsame.span_eq ▸ hreach⟩, ?_⟩
    intro chunkType' n' hfoundAs' hreach'
    obtain ⟨span', hspan'⟩ := hspanOf hfoundAs'
    obtain ⟨hreach'', hlines'⟩ := hreaches hspan'
    have heq : span' = c.span := by
      rw [hsame.span_eq] at hreach' ⊢
      exact hlines'.eq_of_range_eq hlines (hreach''.trans hreach'.symm)
    have hfind : s.chunk span' chunkType' none ∈ finds.filter (·.span.range = c.span.range) := by
      refine List.mem_filter.mpr ⟨(hfinds _).mpr ⟨chunkType', n', span', hfoundAs', hspan', ?_, rfl⟩,
        decide_eq_true (congrArg Span.range heq)⟩
      rw [heq, hsame.span_eq]
      exact hfits
    rw [hwinner.chunkType_eq]
    exact hleads.rank_le hfind
  · intro c hc
    obtain ⟨chunkType, n, span, -, -, -, hsame⟩ := hfrom c hc
    obtain ⟨-, -, -, -, hnone⟩ := condenses_of_mem_collect hc
    refine ⟨hsame.path_eq, hsame.language_eq, hnone.mpr fun f hf => ?_⟩
    obtain ⟨-, -, -, -, -, -, rfl⟩ := (hfinds f).mp (List.mem_filter.mp hf).1
    rfl

/-- Scopes below which the same is found for each parent give the same blocks. -/
theorem blocksWithin_congr {queries : Queries} {scopeOf scopeOf' : Span → Option Node}
    (h : ∀ p ∈ parents, ∃ scope scope', scopeOf p.span = some scope ∧
      scopeOf' p.span = some scope' ∧ ∀ query ∈ queries.blocks,
        s.blockFinds parents p scope query = s.blockFinds parents p scope' query) :
    s.blocksWithin queries scopeOf parents = s.blocksWithin queries scopeOf' parents := by
  rw [blocksWithin, blocksWithin, mapM_congr]
  intro p hp
  obtain ⟨scope, scope', hscope, hscope', hfinds⟩ := h p hp
  rw [hscope, hscope']
  simp only
  rw [mapM_congr hfinds]

/-- Where each query is for one kind, the search of the whole tree has a result. -/
theorem exists_blocksWithin_eq_ok {queries : Queries} (hs : s.lines = LineMap.ofBytes s.source)
    (hnested : root.Nested) (hstop : root.stop ≤ s.source.length)
    (hkinds : ∀ query ∈ queries.blocks, ∃ kind capture, query.IsForKind kind capture) :
    ∃ blocks, s.blocksWithin queries (fun _ => some root) parents = .ok blocks := by
  refine exists_bind_eq_ok (exists_mapM_eq_ok fun p hp => ?_) fun finds _ => ⟨_, rfl⟩
  refine exists_map_eq_ok (exists_mapM_eq_ok fun query hquery => ?_)
  obtain ⟨kind, capture, hkind⟩ := hkinds query hquery
  obtain ⟨finds, -, hfinds⟩ := blockFinds_covering hkind hs hnested hstop hp
  exact ⟨finds, hfinds⟩

end Setting

/-! ## Block patterns for one kind each -/

/-- The block patterns that a grammar accepts are for one kind each, if those of the language are. -/
theorem blocks_isForKind {l : Language} {g : Grammar} {patterns : Grammar.Patterns}
    (hcompile : Grammar.compile l g = .ok patterns) (hkinds : l.BlocksAreKinds)
    (source : List UInt8) :
    ∀ query ∈ (patterns.queries source).blocks, ∃ kind capture, query.IsForKind kind capture := by
  intro query hquery
  obtain ⟨-, rfl⟩ := Grammar.compile_eq_ok_iff.mp hcompile
  obtain ⟨text, htext, rfl⟩ := List.mem_map.mp hquery
  obtain ⟨kind, capture, hrules⟩ := hkinds text (List.mem_filter.mp htext).1
  refine ⟨kind, capture, ?_⟩
  rw [Grammar.queryOfText, hrules]
  exact queryOf_forKind kind capture source

/-- **Nothing is lost by scopes**: where each block pattern names the nodes of one kind, as those of
all built-in languages do, the search below the nodes that cover the structural chunks finds the
blocks that the search of the whole tree finds.  The look-ups of these nodes are searches in files
whose offsets are words. -/
theorem blocks_eq_whole_tree {l : Language} {g : Grammar} {patterns : Grammar.Patterns}
    {path : String} {source : List UInt8} {root : Node} {parents : List Chunk}
    (hcompile : Grammar.compile l g = .ok patterns) (hkinds : l.BlocksAreKinds)
    (hnested : root.Nested) (hstop : root.stop ≤ source.length)
    (hparents : (Setting.ofFile l path source).structural (patterns.queries source) root =
      .ok parents) :
    (∃ blocks,
      (Setting.ofFile l path source).blocksWithin (patterns.queries source)
        (fun span => some (root.covering span.start span.stop)) parents = .ok blocks ∧
      (Setting.ofFile l path source).blocksWithin (patterns.queries source)
        (fun _ => some root) parents = .ok blocks ∧
      (source.length < Node.offsetModulus →
        (Setting.ofFile l path source).blocks (patterns.queries source) root parents =
          .ok blocks) ∧
      (Setting.ofFile l path source).AreBlocks (patterns.queries source).blocks root parents
        blocks) ∧
    ∀ m ∈ BuiltIn.languages, m.BlocksAreKinds := by
  have hquery := blocks_isForKind hcompile hkinds source
  obtain ⟨blocks, hblocks⟩ : ∃ blocks, (Setting.ofFile l path source).blocksWithin
      (patterns.queries source) (fun _ => some root) parents = .ok blocks :=
    Setting.exists_blocksWithin_eq_ok rfl hnested hstop hquery
  have hfinds : ∀ p ∈ parents, ∀ query ∈ (patterns.queries source).blocks,
      (Setting.ofFile l path source).blockFinds parents p
          (root.covering p.span.start p.span.stop) query =
        (Setting.ofFile l path source).blockFinds parents p root query := by
    intro p hp query hmem
    obtain ⟨kind, capture, hkind⟩ := hquery query hmem
    obtain ⟨finds, hscoped, hwhole⟩ := Setting.blockFinds_covering
      (s := Setting.ofFile l path source) hkind rfl hnested hstop hp
    rw [hscoped, hwhole]
  refine ⟨⟨blocks, ?_, hblocks, ?_, ?_⟩, BuiltIn.blocksAreKinds⟩
  · refine Eq.trans ?_ hblocks
    exact Setting.blocksWithin_congr fun p hp => ⟨_, root, rfl, rfl, hfinds p hp⟩
  · intro hwords
    obtain ⟨found, hfound, hchunks⟩ := bind_eq_ok_iff.mp hparents
    refine Eq.trans (Setting.blocksWithin_congr fun p hp => ⟨_, root, ?_, rfl, hfinds p hp⟩) hblocks
    have horigin := Setting.structural_origin rfl hfound hchunks hp
    exact Node.covering?_eq_some root p.span.start_le_stop
      (Nat.lt_of_le_of_lt horigin.lines.stop_le hwords)
  · refine Setting.areBlocks_of_blocksWithin rfl (hnested.within hstop) ?_ hblocks
    intro query hmem
    obtain ⟨text, -, rfl⟩ := List.mem_map.mp hmem
    exact queryOf_local _ source

/-! ## A loop in a definition -/

/-- A language with definitions, in which loops are blocks. -/
def whileLanguage : Language where
  name := "while"
  displayName := "While"
  grammar := "while"
  extensions := ["while"]
  patterns := ["(def) @def"]
  blockPatterns := ["(loop) @loop"]
  captures := [("def", .function), ("loop", .loop)]
  minLines := 1

/-- A definition with a loop in it. -/
def whileContent : List UInt8 :=
  Text.Utf8.encode "def f:\n  while x:\n    print(1234567890)\n".toList

/-- The tree of this file. -/
def whileTree : Node :=
  .mk ⟨0, "source", 0, 40, true, false, none⟩ [
    .mk ⟨1, "def", 0, 39, true, false, none⟩ [
      .mk ⟨2, "loop", 9, 39, true, false, none⟩ []]]

/-- The file as a setting. -/
def whileSetting : Setting :=
  .ofFile whileLanguage "f.while" whileContent

/-- The patterns of the language, compiled. -/
def whilePatterns : Grammar.Patterns :=
  ⟨["(def) @def"], ["(loop) @loop"]⟩

/-- The loop with its indentation. -/
def whileSpan : Span where
  start := 7
  stop := 39
  firstLine := 2
  lastLine := 3
  start_le_stop := by decide
  firstLine_pos := by decide
  firstLine_le_lastLine := by decide

theorem while_nested : whileTree.Nested := by
  refine .mk (by decide) ?_ (List.pairwise_singleton _ _) ?_
  · exact List.forall_mem_singleton.mpr (by decide)
  · refine List.forall_mem_singleton.mpr (.mk (by decide) ?_ (List.pairwise_singleton _ _) ?_)
    · exact List.forall_mem_singleton.mpr (by decide)
    · exact List.forall_mem_singleton.mpr (.leaf (by decide))

theorem while_blocksAreKinds : whileLanguage.BlocksAreKinds :=
  List.forall_mem_singleton.mpr ⟨"loop", "loop", rfl⟩

/-- The definition is the only structural chunk of the file. -/
theorem while_structural : ∃ parents,
    whileSetting.structural (whilePatterns.queries whileContent) whileTree = .ok parents ∧
      ∀ range, (∃ p ∈ parents, p.span.range = range) ↔ range = (0, 39) := by
  have hfound : matchesOf (whilePatterns.queries whileContent).structural whileTree =
      .ok [[⟨"def", .mk ⟨1, "def", 0, 39, true, false, none⟩ [
        .mk ⟨2, "loop", 9, 39, true, false, none⟩ []]⟩]] := rfl
  obtain ⟨parents, hparents, hsum⟩ := Setting.structuralOf_summarises (s := whileSetting) rfl
    (while_nested.within (by decide))
    (mem_preorder_of_matchesOf (whilePatterns.structural_local whileContent) hfound)
  refine ⟨parents, bind_eq_ok_iff.mpr ⟨_, hfound, hparents⟩, fun range => ?_⟩
  rw [hsum.range_iff]
  constructor
  · rintro ⟨captures, hcap, k, hk, -, -, rfl⟩
    rw [List.mem_singleton.mp hcap, List.mem_singleton] at hk
    rw [hk]
    rfl
  · rintro rfl
    exact ⟨_, List.mem_singleton_self _, _, List.mem_singleton_self _, rfl, rfl, rfl⟩

/-- The span of the loop fits inside the definition. -/
theorem while_fits {parents : List Chunk}
    (hparents : ∀ range, (∃ p ∈ parents, p.span.range = range) ↔ range = (0, 39)) :
    whileSetting.Fits parents whileSpan := by
  have hslice : slice whileContent 7 39 =
      Text.Utf8.encode "  while x:\n    print(1234567890)".toList := by decide
  have hlength : (Text.Utf8.decodeLossy (slice whileContent 7 39)).length = 32 := by
    rw [hslice, Text.Utf8.decodeLossy_encode]
    decide
  refine ⟨?_, ?_, by decide, ?_, ?_⟩
  · obtain ⟨p, hp, hrange⟩ := (hparents (0, 39)).mpr rfl
    obtain ⟨hstart, hstop⟩ := Prod.mk.inj hrange
    exact ⟨p, hp, by rw [Span.contains, hstart, hstop]; rfl⟩
  · intro p hp hrange
    have hother := (hparents _).mp ⟨p, hp, rfl⟩
    rw [hrange] at hother
    exact absurd hother (by decide)
  · show 30 ≤ (Text.Utf8.decodeLossy (slice whileContent 7 39)).length
    omega
  · show (Text.Utf8.decodeLossy (slice whileContent 7 39)).length ≤ 2000
    omega

/-- The loop is a block of the definition, wherever it is looked for. -/
theorem blocks_eq_whole_tree_sample :
    Grammar.compile whileLanguage Grammar.standard = .ok whilePatterns ∧
    whileLanguage.BlocksAreKinds ∧ whileTree.Nested ∧ whileTree.stop ≤ whileContent.length ∧
    ∃ parents blocks,
      whileSetting.structural (whilePatterns.queries whileContent) whileTree = .ok parents ∧
      whileSetting.blocks (whilePatterns.queries whileContent) whileTree parents = .ok blocks ∧
      whileSetting.blocksWithin (whilePatterns.queries whileContent) (fun _ => some whileTree)
        parents = .ok blocks ∧
      ∃ c ∈ blocks, c.span = whileSpan := by
  have hcompile : Grammar.compile whileLanguage Grammar.standard = .ok whilePatterns := rfl
  have hstop : whileTree.stop ≤ whileContent.length := by decide
  refine ⟨hcompile, while_blocksAreKinds, while_nested, hstop, ?_⟩
  obtain ⟨parents, hparents, hranges⟩ := while_structural
  obtain ⟨⟨blocks, -, hwhole, hblocks, hspec⟩, -⟩ :=
    blocks_eq_whole_tree hcompile while_blocksAreKinds while_nested hstop hparents
  have hlines : whileSpan.OnLinesOf whileContent := ⟨by decide, by decide, by decide⟩
  have hloop : whileSetting.FoundAs (whilePatterns.queries whileContent).blocks whileTree .loop
      (.mk ⟨2, "loop", 9, 39, true, false, none⟩ []) :=
    ⟨rfl, _, List.mem_singleton_self _, _, rfl, _, List.mem_singleton_self _, _,
      List.mem_singleton_self _, rfl, rfl⟩
  have hreaches : whileSetting.Reaches whileSpan (.mk ⟨2, "loop", 9, 39, true, false, none⟩ []) := by
    show (7, 39) = (lineStart whileContent 9, 39)
    decide
  exact ⟨parents, blocks, hparents, hblocks (by decide), hwhole,
    (hspec.span_iff whileSpan).mpr ⟨hlines, while_fits hranges, .loop, _, hloop, hreaches⟩⟩

end CodeChallenges.Candidates

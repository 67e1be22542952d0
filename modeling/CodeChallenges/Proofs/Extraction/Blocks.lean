import CodeChallenges.Proofs.Extraction.Nesting
import CodeChallenges.Proofs.Selection.Containment
/-!
# No block stands alone

Blocks are looked for inside structural chunks before anything is dropped.  What contains a kept
chunk is kept as well, so the structural chunk around a kept block is kept, or another chunk at its
place is; in either case its place is that of a challenge (`processFile_blocks_inside`).
-/

namespace CodeChallenges

open CodeChallenges.Tree (Node)

/-- A challenge has the bytes and the lines of a span. -/
structure Challenge.HasSpan (c : Challenge) (s : Span) : Prop where
  start_eq : c.startByte = s.start
  stop_eq : c.endByte = s.stop
  firstLine_eq : c.startLine = s.firstLine
  lastLine_eq : c.endLine = s.lastLine

theorem Challenge.Places.hasSpan {c : Challenge} {chunk : Chunk} (h : c.Places chunk) :
    c.HasSpan chunk.span :=
  ⟨h.start_eq, h.stop_eq, h.firstLine_eq, h.lastLine_eq⟩

theorem Challenge.HasSpan.range_eq {c : Challenge} {s t : Span} (hs : c.HasSpan s)
    (ht : c.HasSpan t) : s.range = t.range := by
  refine Prod.ext ?_ ?_
  · exact Int.ofNat.inj (hs.start_eq.symm.trans ht.start_eq)
  · exact Int.ofNat.inj (hs.stop_eq.symm.trans ht.stop_eq)

theorem Challenge.HasSpan.strictlyCovers {c d : Challenge} {s t : Span} (hd : d.HasSpan s)
    (hc : c.HasSpan t) (h : s.strictlyContains t = true) : d.StrictlyCovers c := by
  rw [Span.strictlyContains, Bool.and_eq_true, bne_iff_ne] at h
  obtain ⟨hinside, hother⟩ := h
  simp only [Span.contains, Bool.and_eq_true, decide_eq_true_eq] at hinside
  constructor
  · rw [Challenge.Covers, hd.start_eq, hd.stop_eq, hc.start_eq, hc.stop_eq]
    exact ⟨Int.ofNat_le.mpr hinside.1, Int.ofNat_le.mpr hinside.2⟩
  · intro heq
    obtain ⟨hstart, hstop⟩ := Prod.mk.inj heq
    rw [hd.start_eq, hc.start_eq] at hstart
    rw [hd.stop_eq, hc.stop_eq] at hstop
    exact hother (Prod.ext (Int.ofNat.inj hstart) (Int.ofNat.inj hstop))

namespace Extraction

open Candidates (Setting)
open Repository (Snapshot Place GitService)
open Repository.Scanner (sampleLanguage)

section Made

variable {r : Registry} {o : Options} {s : Setting} {root : Node} {candidates : List Chunk}
  {made : List Challenge}

/-- Every challenge has the span of a candidate that is not dropped. -/
theorem MadeFrom.exists_kept (hmade : MadeFrom r o s root candidates made) {c : Challenge}
    (hc : c ∈ made) :
    ∃ chunk, c.HasSpan chunk.span ∧ (chunk, none) ∈ Selection.judged r s.source
      (root.comments s.source s.language) (root.imports s.source s.language) candidates := by
  obtain ⟨chunk, hchunk, hok⟩ := exists_of_mem_mapM hmade hc
  exact ⟨chunk, (Challenge.ofChunk_eq_ok hok).1.hasSpan, Selection.mem_of_mem_bestOf hchunk⟩

/-- A candidate that is not dropped has its place among the challenges, with its span. -/
theorem MadeFrom.exists_hasSpan (hmade : MadeFrom r o s root candidates made)
    (hlines : ∀ c ∈ candidates, c.span.OnLinesOf s.source) {chunk : Chunk}
    (hkept : (chunk, none) ∈ Selection.judged r s.source (root.comments s.source s.language)
      (root.imports s.source s.language) candidates) :
    ∃ d ∈ made, d.HasSpan chunk.span := by
  obtain ⟨best, hbest, hplace⟩ := Selection.exists_mem_bestOf (r := r) hkept
  obtain ⟨d, hd, hok⟩ := exists_mem_of_mapM hmade hbest
  have hsame : best.span = chunk.span :=
    (hlines best (Selection.mem_of_mem_resolve hbest)).eq_of_range_eq
      (hlines chunk (Selection.mem_judged_iff.mp hkept).1) (Chunk.place_eq_iff.mp hplace).2
  exact ⟨d, hd, hsame ▸ (Challenge.ofChunk_eq_ok hok).1.hasSpan⟩

/-- Around a challenge that has the span of a candidate, every candidate has its challenge. -/
theorem MadeFrom.exists_around {captured : Node → Prop}
    (hmade : MadeFrom r o s root candidates made) (hv : Text.Utf8.isValid s.source = true)
    (hroot : root.OnBoundaries s.source) (hin : ∀ n, captured n → n ∈ root.preorder)
    (hfrom : ∀ c ∈ candidates, s.Origin captured c) {outer inner : Chunk}
    (houter : outer ∈ candidates) (hinner : inner ∈ candidates)
    (h : outer.span.contains inner.span = true) {c : Challenge} (hc : c ∈ made)
    (hspan : c.HasSpan inner.span) : ∃ d ∈ made, d.HasSpan outer.span := by
  obtain ⟨chunk, hchunk, hkept⟩ := hmade.exists_kept hc
  obtain ⟨hmem, hreason⟩ := Selection.mem_judged_iff.mp hkept
  have hlines : ∀ c ∈ candidates, c.span.OnLinesOf s.source := fun c hc => (hfrom c hc).lines
  -- The challenge may come from another candidate, but from one at the same place.
  have hsame : chunk.span = inner.span :=
    (hlines chunk hmem).eq_of_range_eq (hlines inner hinner) (hchunk.range_eq hspan)
  have hlanguage : outer.language = chunk.language :=
    (hfrom outer houter).language_eq.trans (hfrom chunk hmem).language_eq.symm
  refine hmade.exists_hasSpan hlines (Selection.mem_judged_iff.mpr ⟨houter, ?_⟩)
  rw [hlanguage]
  exact Selection.dropReason_eq_none_of_contains (Span.pairwise_sorted _) (Span.pairwise_sorted _)
    (hlines outer houter) (hlines chunk hmem) ((hfrom outer houter).isBoundary hin hroot hv)
    ((hfrom chunk hmem).isBoundary hin hroot hv) (by rw [hsame]; exact h) hreason

end Made

/-- The blocks of a tree are among its candidates if the options ask for them. -/
theorem Collected.exists_blocks {s : Setting} {queries : Queries} {o : Options} {root : Node}
    {structural further : List Chunk} (h : Collected s queries o root structural further)
    (ho : o.includeBlocks = true) :
    ∃ blocks, s.blocks queries root structural = .ok blocks ∧ ∀ b ∈ blocks, b ∈ further := by
  have hfurther := h.further_eq
  rw [furtherCandidates_eq, if_pos ho] at hfurther
  obtain ⟨blocks, hblocks, hfurther⟩ := bind_eq_ok_iff.mp hfurther
  obtain ⟨file, -, hfurther⟩ := bind_eq_ok_iff.mp hfurther
  refine ⟨blocks, hblocks, fun b hb => ?_⟩
  rw [← pure_eq_ok_iff.mp hfurther]
  exact List.mem_append_left _ hb

/-- **No block stands alone**: each challenge that has the span of a block lies inside a larger
challenge, which has the span of a structural chunk. -/
theorem processFile_blocks_inside {t : Toolkit} {r : Registry} {o : Options} {snapshot : Snapshot}
    {root : Place} {git : Option GitService} {path : String} {l : Language} {count : Nat}
    {made : List Challenge} {dropped : Int} {messages : List Log.Message} {content : List UInt8}
    (h : processFile t r o snapshot root git path l =
      .ok ⟨.challenges count made, dropped, messages⟩)
    (hread : snapshot.read? root path = some content) (ho : o.includeBlocks = true)
    (htree : (t.parse l content).OnBoundaries content) :
    ∃ patterns, Grammar.prepare t.grammars l = .ok patterns ∧ ∃ structural blocks,
      (Setting.ofFile l path content).structural (patterns.queries content) (t.parse l content) =
        .ok structural ∧
      (Setting.ofFile l path content).blocks (patterns.queries content) (t.parse l content)
        structural = .ok blocks ∧
      ∀ c ∈ made, ∀ b ∈ blocks, c.HasSpan b.span →
        ∃ d ∈ made, d.StrictlyCovers c ∧ ∃ p ∈ structural, d.HasSpan p.span := by
  obtain ⟨hv, patterns, hpatterns, structural, further, hcollected, hmade, -⟩ :=
    processFile_collected h hread
  obtain ⟨blocks, hblocks, hfurther⟩ := hcollected.exists_blocks ho
  refine ⟨patterns, hpatterns, structural, blocks, hcollected.structural_eq, hblocks, ?_⟩
  intro c hc b hb hspan
  obtain ⟨p, hp, hlarger⟩ := Setting.exists_parent_of_mem_blocks rfl hblocks hb
  have hinside : p.span.contains b.span = true := by
    rw [Span.strictlyContains, Bool.and_eq_true] at hlarger
    exact hlarger.1
  obtain ⟨d, hd, hdspan⟩ := hmade.exists_around hv htree
    (fun n hn => hn.mem_preorder (patterns.used_local content o)) (hcollected.fromTree rfl)
    (List.mem_append_left further hp) (List.mem_append_right structural (hfurther b hb)) hinside hc
    hspan
  exact ⟨d, hd, hdspan.strictlyCovers hspan hlarger, p, hp, hdspan⟩

/-! ## A small file with a block -/

/-- The small language with loops as blocks. -/
def loopLanguage : Language :=
  { sampleLanguage with
    blockPatterns := ["(loop) @loop"]
    captures := [("def", .function), ("loop", .loop)] }

/-- A definition with a loop in it. -/
def loopContent : List UInt8 :=
  Text.Utf8.encode "def f \x7b\n  while (x) \x7b\n    print(12345678)\n  \x7d\n\x7d\n".toList

/-- The tree of this file. -/
def loopTree : Node :=
  .mk ⟨0, "source", 0, 48, true, false, none⟩ [
    .mk ⟨1, "def", 0, 47, true, false, none⟩ [
      .mk ⟨2, "loop", 10, 45, true, false, none⟩ []]]

/-- A toolkit that knows this tree. -/
def loopToolkit : Toolkit :=
  ⟨Grammar.only ["sample"], fun _ _ => loopTree⟩

/-- A directory with this file. -/
def loopSnapshot : Snapshot :=
  ⟨[(["r"], .directory), (["r", "f.sample"], .file loopContent)]⟩

theorem loop_onBoundaries : loopTree.OnBoundaries loopContent := by
  have hnodes : ∀ n ∈ loopTree.preorder, n.start ≤ n.stop ∧
      Text.Utf8.IsBoundary loopContent n.start ∧ Text.Utf8.IsBoundary loopContent n.stop := by
    decide +kernel
  exact ⟨fun n hn => (hnodes n hn).1, fun n hn => (hnodes n hn).2.1, fun n hn => (hnodes n hn).2.2⟩

theorem loop_read : loopSnapshot.read? ["r"] "f.sample" = some loopContent := by
  have hplain : loopSnapshot.Plain ["r"] := Snapshot.plain_of_isPlain (by decide)
  have hentry : loopSnapshot.entryAt (["r"] ++ ["f.sample"]) = some (.file loopContent) := by decide
  rw [← Path.join_singleton "f.sample"]
  exact hplain.read_join hentry

/-- The definition and the loop in it become challenges. -/
theorem loop_processed : ∃ made messages,
    processFile loopToolkit ⟨[loopLanguage]⟩ { includeBlocks := true } loopSnapshot ["r"] none
      "f.sample" loopLanguage = .ok ⟨.challenges 2 made, 0, messages⟩ ∧
    made.map (fun c => (c.startByte, c.endByte, c.chunkType)) =
      [(0, 47, .function), (8, 45, .loop)] := by
  rw [processFile_eq_processContent loop_read]
  apply eq_ok_of_outline
  simp only [processContent, processText, processTree, furtherCandidates, challengesOf,
    Setting.structuralOf, Setting.blocks, Setting.blocksWithin, Setting.collect, Selection.judged,
    Selection.bestOf, Span.sorted, Node.comments, Node.imports, Challenge.ofChunk,
    Challenge.commentRangesOf, mergeSort_eq_computedSort]
  decide +kernel

/-- The loop of the small file lies inside its definition. -/
theorem processFile_blocks_inside_sample : ∃ count made dropped messages,
    processFile loopToolkit ⟨[loopLanguage]⟩ { includeBlocks := true } loopSnapshot ["r"] none
      "f.sample" loopLanguage = .ok ⟨.challenges count made, dropped, messages⟩ ∧
    made.map (fun c => (c.startByte, c.endByte, c.chunkType)) =
      [(0, 47, .function), (8, 45, .loop)] ∧
    ∃ patterns, Grammar.prepare loopToolkit.grammars loopLanguage = .ok patterns ∧
      ∃ structural blocks,
        (Setting.ofFile loopLanguage "f.sample" loopContent).structural
          (patterns.queries loopContent) loopTree = .ok structural ∧
        (Setting.ofFile loopLanguage "f.sample" loopContent).blocks (patterns.queries loopContent)
          loopTree structural = .ok blocks ∧
        ∀ c ∈ made, ∀ b ∈ blocks, c.HasSpan b.span →
          ∃ d ∈ made, d.StrictlyCovers c ∧ ∃ p ∈ structural, d.HasSpan p.span := by
  obtain ⟨made, messages, hok, hplaces⟩ := loop_processed
  exact ⟨2, made, 0, messages, hok, hplaces,
    processFile_blocks_inside hok loop_read rfl loop_onBoundaries⟩

end Extraction

end CodeChallenges

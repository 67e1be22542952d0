import CodeChallenges.Proofs.Extraction.File
/-!
# Challenges are faithful to their file

Every challenge of a file with a nested tree says the truth about its place: its lines are those of
its bytes, its text is what the bytes encode, and its comments are ranges of its text, one after
the other.
-/

namespace CodeChallenges

open CodeChallenges.Tree (Node rowAt)
open CodeChallenges.Text.Utf8 (encode)

/-- A challenge of a file says the truth about its place in the bytes of the file. -/
structure Challenge.Faithful (o : Options) (bytes : List UInt8) (c : Challenge) : Prop where
  startByte_nonneg : 0 ≤ c.startByte
  startByte_le_endByte : c.startByte ≤ c.endByte
  endByte_le : c.endByte ≤ bytes.length
  startLine_eq : c.startLine = 1 + rowAt bytes c.startByte.toNat
  endLine_eq : c.endLine =
    1 + rowAt bytes (if c.startByte < c.endByte then c.endByte - 1 else c.startByte).toNat
  content_eq : o.preserveEmptyLines = true →
    encode c.content.toList = slice bytes c.startByte.toNat c.endByte.toNat
  comments_ascending : c.commentRanges.Pairwise (fun a b => a.2 ≤ b.1)
  comments_within : ∀ r ∈ c.commentRanges, 0 ≤ r.1 ∧ r.1 ≤ r.2 ∧ r.2 ≤ c.content.length

/-- The challenge of a chunk on the lines of its bytes is faithful. -/
theorem Challenge.faithful_of_ofChunk {o : Options} {bytes : List UInt8} {chunk : Chunk}
    {comments : List Span} {made : Challenge} (h : ofChunk chunk comments o bytes = .ok made)
    (hlines : chunk.span.OnLinesOf bytes)
    (hasc : comments.Pairwise (fun s t => s.stop ≤ t.start)) : made.Faithful o bytes := by
  obtain ⟨hplace, -⟩ := ofChunk_eq_ok h
  obtain ⟨hcomments, hwithin⟩ := ofChunk_comments h hasc
  have hle := chunk.span.start_le_stop
  have hstop := hlines.stop_le
  have hstart_toNat : made.startByte.toNat = chunk.span.start := by
    rw [hplace.start_eq, Int.toNat_natCast]
  have hstop_toNat : made.endByte.toNat = chunk.span.stop := by
    rw [hplace.stop_eq, Int.toNat_natCast]
  have hlast : (if made.startByte < made.endByte then made.endByte - 1 else made.startByte).toNat =
      chunk.span.lastByte := by
    rw [hplace.start_eq, hplace.stop_eq, Span.lastByte]
    split <;> split <;> omega
  refine ⟨?_, ?_, ?_, ?_, ?_, fun ho => ?_, hcomments, hwithin⟩
  · rw [hplace.start_eq]
    omega
  · rw [hplace.start_eq, hplace.stop_eq]
    omega
  · rw [hplace.stop_eq]
    omega
  · rw [hstart_toNat, hplace.firstLine_eq, hlines.firstLine_eq]
    omega
  · rw [hlast, hplace.lastLine_eq, hlines.lastLine_eq]
    omega
  · rw [hstart_toNat, hstop_toNat]
    exact ofChunk_content h ho

namespace Extraction

open Repository (Snapshot Place GitService)
open Repository.Scanner (sampleLanguage sampleRegistry sampleContent sampleSnapshot sampleWorld
  sampleOptions)

/-- The comments of a nested tree come one after the other. -/
theorem comments_ascending {root : Node} (h : root.Nested) (source : List UInt8) (l : Language) :
    (root.comments source l).Pairwise (fun s t => s.stop ≤ t.start) := by
  rw [Node.comments, Node.sorted_extents h]
  exact Node.extents_ascending h

/-- **Every challenge of a file is faithful** to the file, if its tree is well-formed. -/
theorem processFile_faithful {t : Toolkit} {r : Registry} {o : Options} {snapshot : Snapshot}
    {root : Place} {git : Option GitService} {path : String} {l : Language} {count : Nat}
    {made : List Challenge} {dropped : Int} {messages : List Log.Message} {content : List UInt8}
    (h : processFile t r o snapshot root git path l =
      .ok ⟨.challenges count made, dropped, messages⟩)
    (hread : snapshot.read? root path = some content)
    (htree : (t.parse l content).WellFormed content) :
    ∀ c ∈ made, c.Faithful o content := by
  intro c hc
  obtain ⟨-, patterns, -, candidates, hfrom, hmade⟩ := processFile_eq_ok h hread
  obtain ⟨chunk, hchunk, hof⟩ := exists_of_mem_mapM hmade hc
  have horigin := hfrom chunk (Selection.mem_of_mem_resolve hchunk)
  exact Challenge.faithful_of_ofChunk hof horigin.lines (comments_ascending htree.nested content l)

/-- Both challenges of the small file are faithful to it. -/
theorem processFile_faithful_sample : ∃ count made dropped messages,
    processFile sampleToolkit sampleRegistry (sampleOptions []) sampleSnapshot ["r"]
      (some sampleWorld.git) "a/b/f.sample" sampleLanguage =
        .ok ⟨.challenges count made, dropped, messages⟩ ∧
    made.length = 2 ∧ ∀ c ∈ made, c.Faithful (sampleOptions []) sampleContent := by
  obtain ⟨made, messages, hok, hplaces⟩ := sample_processed
  refine ⟨3, made, 1, messages, hok, ?_,
    processFile_faithful hok sample_read sample_wellFormed⟩
  rw [← List.length_map, hplaces]
  rfl

end Extraction

end CodeChallenges

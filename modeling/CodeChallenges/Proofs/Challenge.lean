import CodeChallenges.Challenge.OfChunk
import CodeChallenges.Proofs.BlankLines
import CodeChallenges.Proofs.LineMap
import CodeChallenges.Proofs.Outcome
import CodeChallenges.Proofs.Text.Utf8
/-!
# What a challenge says of its chunk

A challenge has the place of its chunk, and without changes to blank lines its text is what the
bytes of the chunk encode (`ofChunk_eq_ok`).  Comments that come one after the other in the file
have character ranges that come one after the other in the text, also after blank lines have shrunk
(`ofChunk_comments`).  A chunk between characters always gives a challenge (`exists_ofChunk_eq_ok`),
and moving its comments asks the map of the text for places that it has (`moveRanges_lookup`).
-/

namespace CodeChallenges.Challenge

open CodeChallenges.Text.Utf8

/-! ## Character positions -/

/-- The character position of a byte offset: the number of characters before it, if the bytes
before it are a text. -/
def CharacterAt (raw : List UInt8) (offset position : Nat) : Prop :=
  ∃ before, raw.take offset = encode before ∧ position = before.length

/-- Character positions are in the order of byte offsets. -/
theorem CharacterAt.mono {raw : List UInt8} {a b i j : Nat} (hi : CharacterAt raw a i)
    (hj : CharacterAt raw b j) (hab : a ≤ b) : i ≤ j := by
  obtain ⟨before, ha, rfl⟩ := hi
  obtain ⟨before', hb, rfl⟩ := hj
  have hcut : encode before ++ (raw.take b).drop a = encode before' := by
    have h := List.take_append_drop a (raw.take b)
    rw [List.take_take, Nat.min_eq_left hab, ha] at h
    exact h.trans hb
  obtain ⟨more, rfl, -⟩ := encode_append_eq_encode hcut
  rw [List.length_append]
  exact Nat.le_add_right _ _

/-- No character position lies beyond the text. -/
theorem CharacterAt.le_length {content : List Char} {a i : Nat}
    (h : CharacterAt (encode content) a i) : i ≤ content.length := by
  obtain ⟨before, ha, rfl⟩ := h
  obtain ⟨more, rfl, -⟩ := encode_append_eq_encode
    (ha ▸ List.take_append_drop a (encode content))
  rw [List.length_append]
  exact Nat.le_add_right _ _

/-- A character range is made of the character positions of its ends. -/
theorem characterRange_eq_ok {raw : List UInt8} {a b : Nat} {range : Nat × Nat} (hab : a ≤ b)
    (h : characterRange raw a b = .ok range) :
    CharacterAt raw a range.1 ∧ CharacterAt raw b range.2 := by
  obtain ⟨before, hbefore, h⟩ := bind_eq_ok_iff.mp h
  obtain ⟨inside, hinside, h⟩ := bind_eq_ok_iff.mp h
  rw [← pure_eq_ok_iff.mp h]
  have ha := decode_eq_ok_iff.mp hbefore
  refine ⟨⟨before, ha, rfl⟩, ⟨before ++ inside, ?_, (List.length_append).symm⟩⟩
  have hcut := List.take_append_drop a (raw.take b)
  rw [List.take_take, Nat.min_eq_left hab] at hcut
  rw [encode_append, ← ha, ← decode_eq_ok_iff.mp hinside]
  exact hcut.symm

/-! ## Ranges in order -/

/-- Ranges of a text of some length that come one after the other. -/
structure InOrder (size : Nat) (ranges : List (Nat × Nat)) : Prop where
  ascending : ranges.Pairwise (fun a b => a.2 ≤ b.1)
  within : ∀ r ∈ ranges, r.1 ≤ r.2 ∧ r.2 ≤ size

/-- Sorting changes nothing about ranges in order. -/
theorem InOrder.sorted {size : Nat} {ranges : List (Nat × Nat)} (h : InOrder size ranges) :
    ranges.mergeSort rangeLe = ranges := by
  refine List.mergeSort_of_pairwise (h.ascending.imp_of_mem fun {a b} ha hb hab => ?_)
  have hwa := h.within a ha
  have hwb := h.within b hb
  simp only [rangeLe, Bool.or_eq_true, Bool.and_eq_true, decide_eq_true_eq, beq_iff_eq]
  omega

/-- The comments inside a chunk have character ranges within its text. -/
theorem commentRangesOf_within {chunk : Chunk} {comments : List Span} {content : List Char}
    {ranges : List (Nat × Nat)}
    (h : commentRangesOf chunk comments (encode content) = .ok ranges) :
    ∀ r ∈ ranges, r.1 ≤ r.2 ∧ r.2 ≤ content.length := by
  obtain ⟨found, hfound, h⟩ := bind_eq_ok_iff.mp h
  rw [← pure_eq_ok_iff.mp h]
  intro r hr
  obtain ⟨c, -, hc⟩ := exists_of_mem_mapM hfound (List.mem_mergeSort.mp hr)
  have hle := Nat.sub_le_sub_right c.start_le_stop chunk.span.start
  obtain ⟨hstart, hstop⟩ := characterRange_eq_ok hle hc
  exact ⟨hstart.mono hstop hle, hstop.le_length⟩

/-- The comments inside a chunk, one after the other, have character ranges in order. -/
theorem commentRangesOf_inOrder {chunk : Chunk} {comments : List Span} {content : List Char}
    {ranges : List (Nat × Nat)} (hasc : comments.Pairwise (fun s t => s.stop ≤ t.start))
    (h : commentRangesOf chunk comments (encode content) = .ok ranges) :
    InOrder content.length ranges := by
  have hwithin := commentRangesOf_within h
  obtain ⟨found, hfound, h⟩ := bind_eq_ok_iff.mp h
  rw [← pure_eq_ok_iff.mp h] at hwithin ⊢
  have hends : ∀ {c : Span} {r : Nat × Nat},
      characterRange (encode content) (c.start - chunk.span.start) (c.stop - chunk.span.start)
        = .ok r →
      CharacterAt (encode content) (c.start - chunk.span.start) r.1 ∧
        CharacterAt (encode content) (c.stop - chunk.span.start) r.2 :=
    fun {c r} hr => characterRange_eq_ok (Nat.sub_le_sub_right c.start_le_stop _) hr
  have horder : InOrder content.length found := by
    refine ⟨pairwise_of_mapM hfound (hasc.filter _) fun hr hr' hst => ?_, fun r hr => ?_⟩
    · exact (hends hr).2.mono (hends hr').1 (Nat.sub_le_sub_right hst _)
    · exact hwithin r (List.mem_mergeSort.mpr hr)
  rw [horder.sorted]
  exact horder

/-- Every comment range of a chunk has places for its ends in the map of its text: ranges are moved
without the value that stands for a missing place. -/
theorem moveRanges_lookup {chunk : Chunk} {comments : List Span} {content : List Char}
    {ranges : List (Nat × Nat)} (maxRun : Int)
    (h : commentRangesOf chunk comments (encode content) = .ok ranges) :
    ∀ r ∈ ranges,
      r.1 < (BlankLines.collapse content maxRun).mapping.length ∧
        r.2 < (BlankLines.collapse content maxRun).mapping.length := by
  intro r hr
  have hwithin := commentRangesOf_within h r hr
  rw [BlankLines.length_mapping_collapse]
  omega

/-- Ranges in order are in order after blank lines have shrunk. -/
theorem InOrder.moveRanges {text : List Char} {ranges : List (Nat × Nat)}
    (h : InOrder text.length ranges) (maxRun : Int) :
    InOrder (BlankLines.collapse text maxRun).text.length
      (moveRanges (BlankLines.collapse text maxRun).mapping ranges) := by
  constructor
  · refine List.pairwise_map.mpr (h.ascending.imp_of_mem fun {a b} _ hb hab => ?_)
    have hwb := h.within b hb
    exact (BlankLines.mapping_collapse_le maxRun hab (Nat.le_trans hwb.1 hwb.2)).1
  · intro r hr
    obtain ⟨q, hq, rfl⟩ := List.mem_map.mp hr
    exact BlankLines.mapping_collapse_le maxRun (h.within q hq).1 (h.within q hq).2

theorem InOrder.arrange {content : List Char} {ranges : List (Nat × Nat)}
    (h : InOrder content.length ranges) (o : Options) :
    InOrder (arrange o content ranges).1.length (arrange o content ranges).2 := by
  unfold Challenge.arrange
  split
  · exact h
  · exact h.moveRanges o.maxBlankRun

/-! ## Challenges -/

/-- A challenge has the place of a chunk. -/
structure Places (made : Challenge) (chunk : Chunk) : Prop where
  path_eq : made.filePath = chunk.path
  language_eq : made.language = chunk.language
  chunkType_eq : made.chunkType = chunk.chunkType
  start_eq : made.startByte = chunk.span.start
  stop_eq : made.endByte = chunk.span.stop
  firstLine_eq : made.startLine = chunk.span.firstLine
  lastLine_eq : made.endLine = chunk.span.lastLine

/-- What a challenge is made of: the text of its chunk with the comments in it, arranged. -/
theorem ofChunk_eq_ok {chunk : Chunk} {comments : List Span} {o : Options} {source : List UInt8}
    {made : Challenge} (h : ofChunk chunk comments o source = .ok made) :
    made.Places chunk ∧ ∃ content ranges,
      slice source chunk.span.start chunk.span.stop = encode content ∧
      commentRangesOf chunk comments (encode content) = .ok ranges ∧
      made.content = String.ofList (arrange o content ranges).1 ∧
      made.commentRanges =
        (arrange o content ranges).2.map fun r => ((r.1 : Int), (r.2 : Int)) := by
  obtain ⟨content, hcontent, h⟩ := bind_eq_ok_iff.mp h
  obtain ⟨ranges, hranges, h⟩ := bind_eq_ok_iff.mp h
  have hraw := decode_eq_ok_iff.mp hcontent
  rw [hraw] at hranges
  rw [← pure_eq_ok_iff.mp h]
  exact ⟨⟨rfl, rfl, rfl, rfl, rfl, rfl, rfl⟩, content, ranges, hraw, hranges, rfl, rfl⟩

/-- Without changes to blank lines a challenge holds exactly the bytes of its chunk. -/
theorem ofChunk_content {chunk : Chunk} {comments : List Span} {o : Options} {source : List UInt8}
    {made : Challenge} (h : ofChunk chunk comments o source = .ok made)
    (ho : o.preserveEmptyLines = true) :
    encode made.content.toList = slice source chunk.span.start chunk.span.stop := by
  obtain ⟨-, content, ranges, hraw, -, hcontent, -⟩ := ofChunk_eq_ok h
  rw [hcontent, arrange, if_pos ho, String.toList_ofList, hraw]

/-- The comment ranges of a challenge come one after the other within its text. -/
theorem ofChunk_comments {chunk : Chunk} {comments : List Span} {o : Options}
    {source : List UInt8} {made : Challenge} (h : ofChunk chunk comments o source = .ok made)
    (hasc : comments.Pairwise (fun s t => s.stop ≤ t.start)) :
    made.commentRanges.Pairwise (fun a b => a.2 ≤ b.1) ∧
      ∀ r ∈ made.commentRanges, 0 ≤ r.1 ∧ r.1 ≤ r.2 ∧ r.2 ≤ made.content.length := by
  obtain ⟨-, content, ranges, -, hranges, hcontent, hcomments⟩ := ofChunk_eq_ok h
  have horder := (commentRangesOf_inOrder hasc hranges).arrange o
  rw [hcontent, hcomments, String.length_ofList]
  constructor
  · exact List.pairwise_map.mpr (horder.ascending.imp Int.ofNat_le.mpr)
  · intro r hr
    obtain ⟨q, hq, rfl⟩ := List.mem_map.mp hr
    have := horder.within q hq
    simp only
    omega

/-! ## Chunks between characters -/

/-- Four boundaries of a source cut a slice into three texts, and the character range of the middle
one begins after the characters of the first. -/
theorem exists_characterRange_eq_ok {source : List UInt8} {a b i j : Nat}
    (ha : IsBoundary source a) (hi : IsBoundary source i) (hj : IsBoundary source j)
    (hb : IsBoundary source b) (hai : a ≤ i) (hij : i ≤ j) (hjb : j ≤ b) :
    ∃ front text back, slice source a b = encode (front ++ text ++ back) ∧
      slice source i j = encode text ∧
      characterRange (slice source a b) (i - a) (j - a) =
        .ok (front.length, (front ++ text).length) := by
  obtain ⟨front, hfront⟩ := ha.exists_encode hi hai
  obtain ⟨text, htext⟩ := hi.exists_encode hj hij
  obtain ⟨back, hback⟩ := hj.exists_encode hb hjb
  have hbefore := take_slice source hai (Nat.le_trans hij hjb)
  have hinside := slice_slice_sub source hai hij hjb
  refine ⟨front, text, back, ?_, htext, ?_⟩
  · rw [encode_append, encode_append, ← hfront, ← htext, ← hback, slice_append source hai hij,
      slice_append source (Nat.le_trans hai hij) hjb]
  · rw [characterRange, hbefore, hinside, hfront, htext, decode_encode, decode_encode,
      List.length_append]
    rfl

/-- A chunk gives a challenge if it and the comments begin and end between characters. -/
theorem exists_ofChunk_eq_ok {chunk : Chunk} {comments : List Span} (o : Options)
    {source : List UInt8} (hstart : IsBoundary source chunk.span.start)
    (hstop : IsBoundary source chunk.span.stop)
    (hcomments : ∀ c ∈ comments, IsBoundary source c.start ∧ IsBoundary source c.stop) :
    ∃ made, ofChunk chunk comments o source = .ok made := by
  refine exists_bind_eq_ok (hstart.exists_decode hstop chunk.span.start_le_stop) fun content _ => ?_
  refine exists_bind_eq_ok ?_ fun ranges _ => ⟨_, rfl⟩
  refine exists_bind_eq_ok (exists_mapM_eq_ok fun c hc => ?_) fun ranges _ => ⟨_, rfl⟩
  obtain ⟨hc, hin⟩ := List.mem_filter.mp hc
  simp only [Span.contains, Bool.and_eq_true, decide_eq_true_eq] at hin
  obtain ⟨hcstart, hcstop⟩ := hcomments c hc
  obtain ⟨front, text, back, -, -, hrange⟩ :=
    exists_characterRange_eq_ok hstart hcstart hcstop hstop hin.1 c.start_le_stop hin.2
  exact ⟨_, hrange⟩

end CodeChallenges.Challenge

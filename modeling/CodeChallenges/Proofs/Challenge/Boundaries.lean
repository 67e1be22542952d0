import CodeChallenges.Proofs.Challenge
import CodeChallenges.Proofs.Sorting
import Mathlib.Data.Prod.Lex
/-!
# When a chunk gives a challenge

The bytes of a chunk are a text or they are not.  In a text every place after which a text ends is a
boundary, so that the bytes before a comment and those of the comment itself can be read exactly if
the comment begins and ends at boundaries (`exists_characterRange_eq_ok_iff`).  A chunk therefore
gives no challenge exactly if its bytes are no text or a comment within it cuts a character in two.
If it gives one and blank lines stay, the ranges are in order, and each delimits its comment
(`ofChunk_fails_iff`).
-/

namespace CodeChallenges.Challenge

open CodeChallenges.Text.Utf8

variable {content : List Char} {offset position : Nat}

/-! ## Boundaries of a text -/

/-- A place in a text is a boundary if the bytes before it are a text. -/
theorem isBoundary_encode_iff {k : Nat} :
    IsBoundary (encode content) k ↔
      k ≤ (encode content).length ∧ ∃ front, (encode content).take k = encode front := by
  constructor
  · intro h
    obtain ⟨hk, hfront, -⟩ := isBoundary_iff.mp h
    exact ⟨hk, isValid_iff.mp hfront⟩
  · rintro ⟨hk, front, hfront⟩
    have hcut := List.take_append_drop k (encode content)
    rw [hfront] at hcut
    obtain ⟨back, -, hback⟩ := encode_append_eq_encode hcut
    refine ⟨front, back, ?_, ?_⟩
    · rw [← hback, hcut]
    · rw [← hfront, List.length_take, Nat.min_eq_left hk]

theorem CharacterAt.isBoundary (h : CharacterAt (encode content) offset position)
    (hle : offset ≤ (encode content).length) : IsBoundary (encode content) offset := by
  obtain ⟨front, hfront, -⟩ := h
  exact isBoundary_encode_iff.mpr ⟨hle, front, hfront⟩

/-- The characters before a character position are those of the bytes before its offset. -/
theorem CharacterAt.encode_take (h : CharacterAt (encode content) offset position) :
    encode (content.take position) = (encode content).take offset := by
  obtain ⟨front, hfront, rfl⟩ := h
  have hcut := List.take_append_drop offset (encode content)
  rw [hfront] at hcut
  obtain ⟨back, rfl, -⟩ := encode_append_eq_encode hcut
  rw [List.take_left, hfront]

/-- A byte range of a text has a character range exactly if its ends are boundaries. -/
theorem exists_characterRange_eq_ok_iff {a b : Nat} (hab : a ≤ b)
    (hb : b ≤ (encode content).length) :
    (∃ range, characterRange (encode content) a b = .ok range) ↔
      IsBoundary (encode content) a ∧ IsBoundary (encode content) b := by
  constructor
  · rintro ⟨range, hrange⟩
    obtain ⟨hstart, hstop⟩ := characterRange_eq_ok hab hrange
    exact ⟨hstart.isBoundary (Nat.le_trans hab hb), hstop.isBoundary hb⟩
  · rintro ⟨hstart, hstop⟩
    obtain ⟨-, front, hfront⟩ := isBoundary_encode_iff.mp hstart
    refine exists_bind_eq_ok ⟨front, decode_eq_ok_iff.mpr hfront⟩ fun _ _ => ?_
    exact exists_bind_eq_ok (hstart.exists_decode hstop hab) fun _ _ => ⟨_, rfl⟩

/-! ## Comments within a chunk -/

variable {chunk : Chunk} {comments : List Span} {o : Options} {source : List UInt8} {c : Span}

/-- A comment within a chunk begins and ends between characters of the bytes of the chunk. -/
def CutsCleanly (chunk : Chunk) (raw : List UInt8) (c : Span) : Prop :=
  IsBoundary raw (c.start - chunk.span.start) ∧ IsBoundary raw (c.stop - chunk.span.start)

/-- A range of a text delimits a comment of a chunk: before it stand the characters of the bytes of
the chunk that come before the comment, and within it those of the bytes of the comment. -/
def Delimits (source : List UInt8) (chunk : Chunk) (content : List Char) (c : Span)
    (range : Int × Int) : Prop :=
  ∃ start stop : Nat, range = ((start : Int), (stop : Int)) ∧ start ≤ stop ∧
    stop ≤ content.length ∧
    encode (content.take start) = slice source chunk.span.start c.start ∧
    encode ((content.take stop).drop start) = slice source c.start c.stop

/-- A comment within a chunk lies within the bytes of the chunk. -/
theorem stop_sub_le_length (hstop : chunk.span.stop ≤ source.length)
    (hc : chunk.span.contains c = true) :
    c.stop - chunk.span.start ≤ (slice source chunk.span.start chunk.span.stop).length := by
  simp only [Span.contains, Bool.and_eq_true, decide_eq_true_eq] at hc
  rw [length_slice, Nat.min_eq_left hstop]
  exact Nat.sub_le_sub_right hc.2 _

/-- The character range of a comment delimits it. -/
theorem delimits_of_characterRange {range : Nat × Nat} (hc : chunk.span.contains c = true)
    (hraw : slice source chunk.span.start chunk.span.stop = encode content)
    (hrange : characterRange (encode content) (c.start - chunk.span.start)
      (c.stop - chunk.span.start) = .ok range) :
    Delimits source chunk content c ((range.1 : Int), (range.2 : Int)) := by
  simp only [Span.contains, Bool.and_eq_true, decide_eq_true_eq] at hc
  have hle := Nat.sub_le_sub_right c.start_le_stop chunk.span.start
  obtain ⟨hstart, hstop⟩ := characterRange_eq_ok hle hrange
  have hordered : range.1 ≤ range.2 := hstart.mono hstop hle
  refine ⟨range.1, range.2, rfl, hordered, hstop.le_length, ?_, ?_⟩
  · rw [hstart.encode_take, ← hraw]
    exact take_slice source hc.1 (Nat.le_trans c.start_le_stop hc.2)
  · -- The characters up to the end of the range are those before it and those within it.
    have hcut : encode (content.take range.1) ++ encode ((content.take range.2).drop range.1) =
        encode (content.take range.2) := by
      rw [← encode_append]
      have htake := List.take_append_drop range.1 (content.take range.2)
      rw [List.take_take, Nat.min_eq_left hordered] at htake
      rw [htake]
    have hbytes := take_eq_append_slice (encode content) hle
    rw [← hstart.encode_take, ← hstop.encode_take] at hbytes
    rw [List.append_cancel_left (hcut.trans hbytes), ← hraw]
    exact slice_slice_sub source hc.1 c.start_le_stop hc.2

/-- The comments within a chunk have character ranges exactly if none of them cuts a character. -/
theorem exists_commentRangesOf_eq_ok_iff (hstop : chunk.span.stop ≤ source.length)
    (hraw : slice source chunk.span.start chunk.span.stop = encode content) :
    (∃ ranges, commentRangesOf chunk comments (encode content) = .ok ranges) ↔
      ∀ c ∈ comments, chunk.span.contains c = true → CutsCleanly chunk (encode content) c := by
  have hone : ∀ c, chunk.span.contains c = true →
      ((∃ range, characterRange (encode content) (c.start - chunk.span.start)
        (c.stop - chunk.span.start) = .ok range) ↔ CutsCleanly chunk (encode content) c) := by
    intro c hc
    refine exists_characterRange_eq_ok_iff (Nat.sub_le_sub_right c.start_le_stop _) ?_
    rw [← hraw]
    exact stop_sub_le_length hstop hc
  constructor
  · rintro ⟨ranges, hranges⟩ c hmem hc
    obtain ⟨found, hfound, -⟩ := bind_eq_ok_iff.mp hranges
    obtain ⟨range, -, hrange⟩ := exists_mem_of_mapM hfound (List.mem_filter.mpr ⟨hmem, hc⟩)
    exact (hone c hc).mp ⟨range, hrange⟩
  · intro hclean
    refine exists_bind_eq_ok (exists_mapM_eq_ok fun c hc => ?_) fun found _ => ⟨_, rfl⟩
    obtain ⟨hmem, hc⟩ := List.mem_filter.mp hc
    exact (hone c hc).mpr (hclean c hmem hc)

/-- Which chunks give a challenge. -/
theorem exists_ofChunk_eq_ok_iff (hstop : chunk.span.stop ≤ source.length) :
    (∃ made, ofChunk chunk comments o source = .ok made) ↔
      isValid (slice source chunk.span.start chunk.span.stop) = true ∧
      ∀ c ∈ comments, chunk.span.contains c = true →
        CutsCleanly chunk (slice source chunk.span.start chunk.span.stop) c := by
  constructor
  · rintro ⟨made, hmade⟩
    obtain ⟨-, content, ranges, hraw, hranges, -⟩ := ofChunk_eq_ok hmade
    refine ⟨isValid_iff.mpr ⟨content, hraw⟩, ?_⟩
    rw [hraw]
    exact (exists_commentRangesOf_eq_ok_iff hstop hraw).mp ⟨ranges, hranges⟩
  · rintro ⟨hvalid, hclean⟩
    obtain ⟨content, hraw⟩ := isValid_iff.mp hvalid
    rw [hraw] at hclean
    refine exists_bind_eq_ok ⟨content, decode_eq_ok_iff.mpr hraw⟩ fun _ _ => ?_
    rw [hraw]
    exact exists_bind_eq_ok ((exists_commentRangesOf_eq_ok_iff hstop hraw).mpr hclean)
      fun _ _ => ⟨_, rfl⟩

/-! ## Ranges in order -/

theorem rangeLe_iff {a b : Nat × Nat} : rangeLe a b = true ↔ toLex a ≤ toLex b := by
  simp only [rangeLe, Bool.or_eq_true, Bool.and_eq_true, decide_eq_true_eq, beq_iff_eq,
    Prod.Lex.toLex_le_toLex]

/-- With blank lines as they are, a challenge has the sorted ranges of the comments within its
chunk, each of which delimits its comment. -/
theorem ofChunk_delimits {made : Challenge} (h : ofChunk chunk comments o source = .ok made)
    (ho : o.preserveEmptyLines = true) :
    made.commentRanges.Pairwise (fun a b => a.1 < b.1 ∨ a.1 = b.1 ∧ a.2 ≤ b.2) ∧
    ∃ ranges, made.commentRanges.Perm ranges ∧
      List.Forall₂ (Delimits source chunk made.content.toList)
        (comments.filter chunk.span.contains) ranges := by
  obtain ⟨-, content, sorted, hraw, hsorted, hcontent, hranges⟩ := ofChunk_eq_ok h
  obtain ⟨found, hfound, hsorted⟩ := bind_eq_ok_iff.mp hsorted
  rw [← pure_eq_ok_iff.mp hsorted, arrange, if_pos ho] at hranges hcontent
  rw [hcontent, hranges, String.toList_ofList]
  refine ⟨?_, found.map fun r => ((r.1 : Int), (r.2 : Int)),
    (List.mergeSort_perm found rangeLe).map _, ?_⟩
  · refine List.pairwise_map.mpr ((pairwise_mergeSort_key toLex (fun _ _ => rangeLe_iff)
      found).imp ?_)
    intro a b hab
    have hlex := Prod.Lex.toLex_le_toLex.mp hab
    simp only
    omega
  · rw [List.forall₂_map_right_iff]
    refine (forall₂_mem_of_mapM hfound).imp ?_
    rintro c range ⟨hc, hrange⟩
    exact delimits_of_characterRange (List.mem_filter.mp hc).2 hraw hrange

/-- **A chunk gives no challenge** exactly if its bytes are no text or a comment within it begins or
ends inside a character.  Otherwise, with blank lines as they are, the comment ranges of the
challenge are in order, and there is one for each comment within the chunk, which delimits it. -/
theorem ofChunk_fails_iff (hstop : chunk.span.stop ≤ source.length) :
    ((∃ error, ofChunk chunk comments o source = .error error) ↔
      isValid (slice source chunk.span.start chunk.span.stop) = false ∨
      ∃ c ∈ comments, chunk.span.contains c = true ∧
        (¬ IsBoundary (slice source chunk.span.start chunk.span.stop)
            (c.start - chunk.span.start) ∨
          ¬ IsBoundary (slice source chunk.span.start chunk.span.stop)
            (c.stop - chunk.span.start))) ∧
    ∀ made, ofChunk chunk comments o source = .ok made → o.preserveEmptyLines = true →
      made.commentRanges.Pairwise (fun a b => a.1 < b.1 ∨ a.1 = b.1 ∧ a.2 ≤ b.2) ∧
      ∃ ranges, made.commentRanges.Perm ranges ∧
        List.Forall₂ (Delimits source chunk made.content.toList)
          (comments.filter chunk.span.contains) ranges := by
  refine ⟨?_, fun made hmade ho => ofChunk_delimits hmade ho⟩
  rw [exists_eq_error_iff, exists_ofChunk_eq_ok_iff hstop, not_and_or, Bool.not_eq_true]
  simp only [CutsCleanly, not_forall, not_and_or, exists_prop]

/-! ## Comments that cut a character -/

/-- A text in which two characters have two bytes. -/
def accentedText : List Char :=
  "é /*ü*/".toList

/-- The whole text as a chunk. -/
def accentedChunk : Chunk where
  span := .ofSizes 0 9 0 0
  chunkType := .file
  path := "f.ts"
  language := "typescript"
  name := none

/-- The comment has the third to the seventh character, and its range delimits it.  A comment that
begins inside the second accented character stops the challenge, even if it is empty. -/
theorem ofChunk_fails_iff_sample :
    accentedChunk.span.stop ≤ (encode accentedText).length ∧
    (∃ error, ofChunk accentedChunk [.ofSizes 6 0 0 0] {} (encode accentedText) =
      .error error) ∧
    ∃ made, ofChunk accentedChunk [.ofSizes 3 6 0 0] {} (encode accentedText) = .ok made ∧
      made.commentRanges = [(2, 7)] ∧
      Delimits (encode accentedText) accentedChunk made.content.toList (.ofSizes 3 6 0 0)
        (2, 7) := by
  have hstop : accentedChunk.span.stop ≤ (encode accentedText).length := by decide
  refine ⟨hstop, ?_, ?_⟩
  · refine (@ofChunk_fails_iff accentedChunk [.ofSizes 6 0 0 0] {} _ hstop).1.mpr (.inr ?_)
    exact ⟨_, List.mem_cons_self, by decide, .inl (by decide +kernel)⟩
  · have hsome : (ofChunk accentedChunk [.ofSizes 3 6 0 0] {} (encode accentedText)).toOption.map
        (·.commentRanges) = some [(2, 7)] := by decide +kernel
    cases hmade : ofChunk accentedChunk [.ofSizes 3 6 0 0] {} (encode accentedText) with
    | error error =>
        rw [hmade] at hsome
        cases hsome
    | ok made =>
        rw [hmade] at hsome
        have hranges : made.commentRanges = [(2, 7)] := Option.some.inj hsome
        obtain ⟨-, ranges, hperm, hall⟩ :=
          (@ofChunk_fails_iff accentedChunk [.ofSizes 3 6 0 0] {} _ hstop).2 made hmade rfl
        have hinside : [Span.ofSizes 3 6 0 0].filter accentedChunk.span.contains =
            [.ofSizes 3 6 0 0] := by decide
        rw [hranges, List.singleton_perm] at hperm
        rw [hinside, ← hperm, List.forall₂_cons] at hall
        exact ⟨made, rfl, hranges, hall.1⟩

end CodeChallenges.Challenge

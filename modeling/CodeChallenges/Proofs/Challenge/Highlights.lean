import CodeChallenges.Proofs.BlankLines.Within
import CodeChallenges.Proofs.Challenge
/-!
# Comments in a challenge with shrunk blank lines

The text of a chunk is cut in three by a comment, and the character range of the comment says where.
If the comment begins and ends with characters that are not blank, its new range holds what the
comment alone becomes (`highlights_movedRange`); so each range of a challenge stays on its comment
(`ofChunk_highlights`).
-/

namespace CodeChallenges.Challenge

open CodeChallenges.BlankLines CodeChallenges.Text.Utf8

/-- A range of a text holds a piece of it. -/
def Shows (content : List Char) (range : Int × Int) (piece : List Char) : Prop :=
  ∃ start stop : Nat, range = ((start : Int), (stop : Int)) ∧ start ≤ stop ∧
    stop ≤ content.length ∧ (content.take stop).drop start = piece

/-- A range that begins after some characters and ends after the piece holds the piece. -/
theorem shows_append (front piece back : List Char) :
    Shows (front ++ piece ++ back) ((front.length : Int), ((front ++ piece).length : Int))
      piece := by
  refine ⟨front.length, (front ++ piece).length, rfl, (List.prefix_append _ _).length_le,
    (List.prefix_append _ _).length_le, ?_⟩
  rw [List.take_left, List.drop_left]

/-- The range of an old text as a range of the new one. -/
def movedRange (mapping : List Nat) (range : Nat × Nat) : Int × Int :=
  ((mapping.getD range.1 0 : Nat), (mapping.getD range.2 0 : Nat))

/-- The new range of a piece holds the new form of the piece. -/
theorem shows_movedRange {text : List Char} (h : SolidEnds text) (maxRun : Int)
    (front back : List Char) :
    Shows (collapse (front ++ text ++ back) maxRun).text
      (movedRange (collapse (front ++ text ++ back) maxRun).mapping
        (front.length, (front ++ text).length))
      (collapse text maxRun).text := by
  obtain ⟨start, stop, htext, hstart, hstop⟩ := collapse_within maxRun h front back
  rw [movedRange, htext, List.getD_eq_getElem?_getD, List.getD_eq_getElem?_getD, hstart, hstop]
  exact shows_append start _ stop

variable {chunk : Chunk} {comments : List Span} {o : Options} {source : List UInt8}

/-- A range of the new text highlights a comment of the source: if the comment begins and ends with
characters that are not blank, the range holds what the comment alone becomes, which is the comment
itself if it has no blank line. -/
def Highlights (source : List UInt8) (content : List Char) (maxRun : Int) (c : Span)
    (range : Int × Int) : Prop :=
  ∃ text, slice source c.start c.stop = encode text ∧
    (SolidEnds text → Shows content range (collapse text maxRun).text ∧
      ((∀ line ∈ linesOf text, isBlankLine line = false) → Shows content range text))

/-- The character range of a comment within a chunk moves to a range that highlights it. -/
theorem highlights_movedRange {content : List Char} {c : Span} {range : Nat × Nat} (maxRun : Int)
    (hstart : IsBoundary source chunk.span.start) (hstop : IsBoundary source chunk.span.stop)
    (hcstart : IsBoundary source c.start) (hcstop : IsBoundary source c.stop)
    (hin : chunk.span.contains c = true)
    (hraw : slice source chunk.span.start chunk.span.stop = encode content)
    (hrange : characterRange (encode content) (c.start - chunk.span.start)
      (c.stop - chunk.span.start) = .ok range) :
    Highlights source (collapse content maxRun).text maxRun c
      (movedRange (collapse content maxRun).mapping range) := by
  simp only [Span.contains, Bool.and_eq_true, decide_eq_true_eq] at hin
  obtain ⟨front, text, back, hwhole, htext, hplace⟩ :=
    exists_characterRange_eq_ok hstart hcstart hcstop hstop hin.1 c.start_le_stop hin.2
  obtain rfl : content = front ++ text ++ back := encode_injective (hraw.symm.trans hwhole)
  obtain rfl : range = (front.length, (front ++ text).length) := by
    rw [hraw, hrange] at hplace
    exact Except.ok.inj hplace
  refine ⟨text, htext, ?_⟩
  intro hsolid
  have hshows := shows_movedRange hsolid maxRun front back
  refine ⟨hshows, ?_⟩
  intro hlines
  rw [collapse_of_solid hlines] at hshows
  exact hshows

/-- What a challenge with shrunk blank lines is made of: the collapsed text of its chunk, and the
moved range of each comment within the chunk, in some order. -/
theorem ofChunk_eq_ok_collapsed {made : Challenge} (h : ofChunk chunk comments o source = .ok made)
    (ho : o.preserveEmptyLines = false) :
    ∃ content found, slice source chunk.span.start chunk.span.stop = encode content ∧
      List.Forall₂ (fun c range => characterRange (encode content) (c.start - chunk.span.start)
        (c.stop - chunk.span.start) = .ok range) (comments.filter chunk.span.contains) found ∧
      made.content.toList = (collapse content o.maxBlankRun).text ∧
      made.commentRanges.Perm
        (found.map (movedRange (collapse content o.maxBlankRun).mapping)) := by
  obtain ⟨-, content, sorted, hraw, hsorted, hcontent, hranges⟩ := ofChunk_eq_ok h
  obtain ⟨found, hfound, hsorted⟩ := bind_eq_ok_iff.mp hsorted
  have hperm : sorted.Perm found := by
    rw [← pure_eq_ok_iff.mp hsorted]
    exact List.mergeSort_perm found rangeLe
  have harrange : arrange o content sorted = ((collapse content o.maxBlankRun).text,
      moveRanges (collapse content o.maxBlankRun).mapping sorted) := by
    rw [arrange, ho]
    rfl
  rw [harrange] at hcontent hranges
  refine ⟨content, found, hraw, mapM_eq_ok_iff.mp hfound, ?_, ?_⟩
  · rw [hcontent, String.toList_ofList]
  · rw [hranges, moveRanges, List.map_map]
    exact hperm.map _

/-- **Highlights stay on their comments** when blank lines shrink.  A chunk of a source, with
comments of the source, gives a challenge with one range for each comment within the chunk, in some
order, and each range highlights its comment. -/
theorem ofChunk_highlights (hstart : IsBoundary source chunk.span.start)
    (hstop : IsBoundary source chunk.span.stop)
    (hcomments : ∀ c ∈ comments, IsBoundary source c.start ∧ IsBoundary source c.stop)
    (ho : o.preserveEmptyLines = false) :
    ∃ made ranges, ofChunk chunk comments o source = .ok made ∧
      made.commentRanges.Perm ranges ∧
      made.commentRanges.length = (comments.filter chunk.span.contains).length ∧
      List.Forall₂ (Highlights source made.content.toList o.maxBlankRun)
        (comments.filter chunk.span.contains) ranges := by
  obtain ⟨made, hmade⟩ := exists_ofChunk_eq_ok o hstart hstop hcomments
  obtain ⟨content, found, hraw, hfound, hcontent, hperm⟩ := ofChunk_eq_ok_collapsed hmade ho
  refine ⟨made, _, hmade, hperm, ?_, ?_⟩
  · rw [hperm.length_eq, List.length_map, ← hfound.length_eq]
  · rw [List.forall₂_map_right_iff, hcontent]
    refine List.Forall₂.imp ?_ ((List.forall₂_and_left _ _).mpr ⟨fun c hc => hc, hfound⟩)
    rintro c range ⟨hc, hrange⟩
    obtain ⟨hc, hin⟩ := List.mem_filter.mp hc
    obtain ⟨hcstart, hcstop⟩ := hcomments c hc
    exact highlights_movedRange o.maxBlankRun hstart hstop hcstart hcstop hin hraw hrange

/-! ## A comment with blank lines -/

/-- A comment before the chunk, one with a run of blank lines, and one at the end of a line. -/
def remarksText : List Char :=
  "#é\nü /* a\n\n\nb */ x // c\n".toList

/-- All lines but the first, as a chunk. -/
def remarksChunk : Chunk where
  span := .ofSizes 4 22 1 3
  chunkType := .function
  path := "f.ts"
  language := "typescript"
  name := none

/-- The three comments. -/
def remarks : List Span :=
  [.ofSizes 0 3 0 0, .ofSizes 7 11 1 3, .ofSizes 21 4 4 0]

/-- One blank line of each run is kept. -/
def remarksOptions : Options :=
  { preserveEmptyLines := false, maxBlankRun := 1 }

/-- The comment with blank lines loses one of them, and its range shows the rest. -/
theorem ofChunk_highlights_sample :
    IsBoundary (encode remarksText) remarksChunk.span.start ∧
    IsBoundary (encode remarksText) remarksChunk.span.stop ∧
    (∀ c ∈ remarks, IsBoundary (encode remarksText) c.start ∧
      IsBoundary (encode remarksText) c.stop) ∧
    remarksOptions.preserveEmptyLines = false ∧
    ∃ made, ofChunk remarksChunk remarks remarksOptions (encode remarksText) = .ok made ∧
      made.commentRanges.length = 2 ∧
      ∃ range ∈ made.commentRanges, Shows made.content.toList range "/* a\n\nb */".toList := by
  have hcut : ∀ n k, (encode (remarksText.take n)).length = k →
      IsBoundary (encode remarksText) k := by
    rintro n - rfl
    refine ⟨remarksText.take n, remarksText.drop n, ?_, rfl⟩
    rw [← encode_append, List.take_append_drop]
  have hstart : IsBoundary (encode remarksText) remarksChunk.span.start := hcut 3 4 (by decide)
  have hstop : IsBoundary (encode remarksText) remarksChunk.span.stop := hcut 24 26 (by decide)
  have hcomments : ∀ c ∈ remarks, IsBoundary (encode remarksText) c.start ∧
      IsBoundary (encode remarksText) c.stop := by
    simp only [remarks, List.forall_mem_cons, List.not_mem_nil, false_imp_iff, implies_true,
      and_true]
    exact ⟨⟨hcut 0 0 (by decide), hcut 2 3 (by decide)⟩, ⟨hcut 5 7 (by decide),
      hcut 16 18 (by decide)⟩, hcut 19 21 (by decide), hcut 23 25 (by decide)⟩
  refine ⟨hstart, hstop, hcomments, rfl, ?_⟩
  obtain ⟨made, ranges, hmade, hperm, hlength, hall⟩ :=
    @ofChunk_highlights remarksChunk remarks remarksOptions _ hstart hstop hcomments rfl
  have hinside : remarks.filter remarksChunk.span.contains =
      [.ofSizes 7 11 1 3, .ofSizes 21 4 4 0] := by decide
  rw [hinside] at hlength hall
  refine ⟨made, hmade, hlength, ?_⟩
  obtain ⟨range, hrange, text, htext, hshows⟩ :=
    exists_mem_of_forall₂ hall List.mem_cons_self
  obtain rfl : text = "/* a\n\n\nb */".toList := by
    refine encode_injective (htext.symm.trans ?_)
    decide
  have hsolid : SolidEnds "/* a\n\n\nb */".toList :=
    ⟨⟨'/', by decide, by decide⟩, ⟨'/', by decide, by decide⟩⟩
  have hnew : (collapse "/* a\n\n\nb */".toList 1).text = "/* a\n\nb */".toList := by decide
  have hshown : Shows made.content.toList range
      (collapse "/* a\n\n\nb */".toList 1).text := (hshows hsolid).1
  rw [hnew] at hshown
  exact ⟨range, hperm.mem_iff.mpr hrange, hshown⟩

end CodeChallenges.Challenge

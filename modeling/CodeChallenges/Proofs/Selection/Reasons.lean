import CodeChallenges.Proofs.Selection.Containment
/-!
# Why a chunk is dropped

Each reason is a property of a chunk by itself (`DropReason.Applies`), and the reason that is given
is the first one that applies (`dropReason_cases`).  A byte that no comment and no import covers is
covered by no comment either, so that the last check decides about the third as well: a chunk is
kept exactly if it is long enough and has a byte of its own that is not blank (`dropReason_first`).
-/

namespace CodeChallenges.Selection

/-! ## Bytes outside spans -/

instance (s : Span) (k : Nat) : Decidable (s.Covers k) :=
  inferInstanceAs (Decidable (s.start ≤ k ∧ k < s.stop))

/-- More spans leave fewer bytes outside. -/
theorem BlankBetween.of_subset {source : List UInt8} {spans more : List Span} {pos stop : Nat}
    (h : BlankBetween source spans pos stop) (hsub : spans ⊆ more) :
    BlankBetween source more pos stop := by
  intro k hpos hstop hnone
  refine h k hpos hstop ?_
  intro s hs
  exact hnone s (hsub hs)

theorem not_blankBetween_iff {source : List UInt8} {spans : List Span} {pos stop : Nat} :
    ¬ BlankBetween source spans pos stop ↔
      ∃ k b, pos ≤ k ∧ k < stop ∧ source[k]? = some b ∧ Text.isBlankByte b = false ∧
        ∀ s ∈ spans, ¬ s.Covers k := by
  simp only [BlankBetween, not_forall, Bool.not_eq_true, Option.mem_def]
  constructor
  · rintro ⟨k, hpos, hstop, hnone, b, hb, hsolid⟩
    exact ⟨k, b, hpos, hstop, hb, hsolid, hnone⟩
  · rintro ⟨k, b, hpos, hstop, hb, hsolid, hnone⟩
    exact ⟨k, hpos, hstop, hnone, b, hb, hsolid⟩

/-! ## Reasons -/

/-- What a reason says of a chunk, whatever other reasons say. -/
def DropReason.Applies (chunk : Chunk) (source : List UInt8) (comments masked : List Span)
    (language : Option Language) : DropReason → Prop
  | .tooFewLines => (chunk.span.lineCount : Int) < language.elim 4 Language.minLines
  | .tooShort =>
    (Text.trim (Text.Utf8.decodeLossy (slice source chunk.span.start chunk.span.stop))).length < 10
  | .commentOnly => BlankBetween source comments chunk.span.start chunk.span.stop
  | .importOnly => BlankBetween source masked chunk.span.start chunk.span.stop

/-- The place of a reason in the order in which reasons are looked for. -/
def DropReason.position : DropReason → Nat
  | .tooFewLines => 0
  | .tooShort => 1
  | .commentOnly => 2
  | .importOnly => 3

theorem DropReason.position_inj {a b : DropReason} (h : a.position = b.position) : a = b := by
  cases a <;> cases b <;> first | rfl | cases h

variable {chunk : Chunk} {source : List UInt8} {comments masked : List Span}
  {language : Option Language}

theorem minLinesIn_eq (language : Option Language) :
    minLinesIn language = language.elim 4 Language.minLines := by
  cases language <;> rfl

/-- Either no reason applies and none is given, or the first that applies is given. -/
theorem dropReason_cases (chunk : Chunk) (source : List UInt8) (language : Option Language)
    (hcomments : comments.Pairwise (fun s t => s.start ≤ t.start))
    (hmasked : masked.Pairwise (fun s t => s.start ≤ t.start)) :
    (dropReason chunk source comments masked language = none ∧
      ∀ reason : DropReason, ¬ reason.Applies chunk source comments masked language) ∨
    ∃ reason, dropReason chunk source comments masked language = some reason ∧
      reason.Applies chunk source comments masked language ∧
      ∀ earlier : DropReason, earlier.position < reason.position →
        ¬ earlier.Applies chunk source comments masked language := by
  have hcomment : blankOutside source chunk.span comments = true ↔
      DropReason.commentOnly.Applies chunk source comments masked language :=
    blankOutsideFrom_iff hcomments
  have himport : blankOutside source chunk.span masked = true ↔
      DropReason.importOnly.Applies chunk source comments masked language :=
    blankOutsideFrom_iff hmasked
  unfold dropReason
  dsimp only
  rw [minLinesIn_eq]
  split
  · rename_i hlines
    refine .inr ⟨.tooFewLines, rfl, hlines, ?_⟩
    intro earlier hlt
    exact absurd hlt (Nat.not_lt_zero _)
  rename_i hlines
  split
  · rename_i hchars
    refine .inr ⟨.tooShort, rfl, hchars, ?_⟩
    rintro (_ | _ | _ | _) hlt
    · exact hlines
    all_goals exact absurd hlt (by decide)
  rename_i hchars
  split
  · rename_i hblank
    refine .inr ⟨.commentOnly, rfl, hcomment.mp hblank, ?_⟩
    rintro (_ | _ | _ | _) hlt
    · exact hlines
    · exact hchars
    all_goals exact absurd hlt (by decide)
  rename_i hsolid
  split
  · rename_i hblank
    refine .inr ⟨.importOnly, rfl, himport.mp hblank, ?_⟩
    rintro (_ | _ | _ | _) hlt
    · exact hlines
    · exact hchars
    · exact fun h => hsolid (hcomment.mpr h)
    · exact absurd hlt (by decide)
  rename_i hown
  refine .inl ⟨rfl, ?_⟩
  rintro (_ | _ | _ | _)
  · exact hlines
  · exact hchars
  · exact fun h => hsolid (hcomment.mpr h)
  · exact fun h => hown (himport.mpr h)

/-- **The verdict on a chunk**, for comments, and comments with imports, in order of their starts:
it is kept exactly if it touches enough lines, its trimmed text has ten characters, and one of its
bytes is neither blank nor covered; otherwise the first reason that applies is given. -/
theorem dropReason_first (hcomments : comments.Pairwise (fun s t => s.start ≤ t.start))
    (hmasked : masked.Pairwise (fun s t => s.start ≤ t.start)) (hsub : comments ⊆ masked) :
    (dropReason chunk source comments masked language = none ↔
      language.elim 4 Language.minLines ≤ chunk.span.lineCount ∧
      10 ≤ (Text.trim (Text.Utf8.decodeLossy
        (slice source chunk.span.start chunk.span.stop))).length ∧
      ∃ k b, chunk.span.start ≤ k ∧ k < chunk.span.stop ∧ source[k]? = some b ∧
        Text.isBlankByte b = false ∧ ∀ s ∈ masked, ¬ s.Covers k) ∧
    ∀ reason : DropReason, dropReason chunk source comments masked language = some reason ↔
      reason.Applies chunk source comments masked language ∧
      ∀ earlier : DropReason, earlier.position < reason.position →
        ¬ earlier.Applies chunk source comments masked language := by
  -- The four checks together ask no more than three of them.
  have hkept : (∀ reason : DropReason, ¬ reason.Applies chunk source comments masked language) ↔
      language.elim 4 Language.minLines ≤ chunk.span.lineCount ∧
      10 ≤ (Text.trim (Text.Utf8.decodeLossy
        (slice source chunk.span.start chunk.span.stop))).length ∧
      ¬ BlankBetween source masked chunk.span.start chunk.span.stop := by
    constructor
    · intro h
      exact ⟨Int.not_lt.mp (h .tooFewLines), Nat.not_lt.mp (h .tooShort), h .importOnly⟩
    · rintro ⟨hlines, hchars, hown⟩ (_ | _ | _ | _)
      · exact Int.not_lt.mpr hlines
      · exact Nat.not_lt.mpr hchars
      · exact fun h => hown (BlankBetween.of_subset h hsub)
      · exact hown
  rw [← not_blankBetween_iff, ← hkept]
  rcases dropReason_cases chunk source language hcomments hmasked with
    ⟨hnone, hno⟩ | ⟨first, hsome, happlies, hbefore⟩
  · refine ⟨iff_of_true hnone hno, ?_⟩
    intro reason
    rw [hnone]
    exact iff_of_false (fun h => nomatch h) fun h => hno reason h.1
  · rw [hsome]
    refine ⟨iff_of_false (fun h => nomatch h) fun h => h first happlies, ?_⟩
    intro reason
    constructor
    · rintro ⟨⟩
      exact ⟨happlies, hbefore⟩
    · rintro ⟨hreason, hearlier⟩
      rcases Nat.lt_trichotomy first.position reason.position with hlt | heq | hgt
      · exact absurd happlies (hearlier first hlt)
      · rw [DropReason.position_inj heq]
      · exact absurd hreason (hbefore reason hgt)

/-! ## Nothing but imports -/

/-- A comment, an import, a blank line and another import. -/
def importsText : List Char :=
  "# aa\nimport b\n\nimport c\n".toList

/-- The four lines as a chunk. -/
def importsChunk : Chunk where
  span := .ofSizes 0 24 0 3
  chunkType := .file
  path := "f.py"
  language := "python"
  name := none

/-- The comment. -/
def importsComments : List Span :=
  [.ofSizes 0 4 0 0]

/-- The comment and the imports.  One span lies within another, and the last reaches beyond the
chunk. -/
def importsMasked : List Span :=
  [.ofSizes 0 4 0 0, .ofSizes 5 8 1 0, .ofSizes 7 2 1 0, .ofSizes 15 20 3 0]

/-- The chunk has bytes outside its comment, but none outside its comment and its imports. -/
theorem dropReason_first_sample :
    importsComments.Pairwise (fun s t => s.start ≤ t.start) ∧
    importsMasked.Pairwise (fun s t => s.start ≤ t.start) ∧
    importsComments ⊆ importsMasked ∧
    dropReason importsChunk (Text.Utf8.encode importsText) importsComments importsMasked none =
      some .importOnly := by
  have hcomments : importsComments.Pairwise (fun s t => s.start ≤ t.start) := by decide
  have hmasked : importsMasked.Pairwise (fun s t => s.start ≤ t.start) := by decide
  have hsub : importsComments ⊆ importsMasked := by decide
  refine ⟨hcomments, hmasked, hsub, ?_⟩
  refine ((dropReason_first hcomments hmasked hsub).2 .importOnly).mpr ⟨?_, ?_⟩
  · exact (blankOutsideFrom_iff hmasked).mp (by decide)
  · rintro (_ | _ | _ | _) hlt
    · show ¬ (4 : Int) < 4
      decide
    · have hslice : slice (Text.Utf8.encode importsText) 0 24 = Text.Utf8.encode importsText := by
        decide
      show ¬ (Text.trim (Text.Utf8.decodeLossy
        (slice (Text.Utf8.encode importsText) 0 24))).length < 10
      rw [hslice, Text.Utf8.decodeLossy_encode]
      decide
    · refine not_blankBetween_iff.mpr ⟨5, 0x69, ?_⟩
      decide
    · exact absurd hlt (by decide)

end CodeChallenges.Selection

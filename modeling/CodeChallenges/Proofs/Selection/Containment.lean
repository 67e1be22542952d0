import CodeChallenges.Proofs.LineMap
import CodeChallenges.Proofs.Selection
import CodeChallenges.Proofs.Text.Blank
/-!
# What contains a kept chunk is kept

Each of the four checks of a chunk passes from a chunk to every chunk around it: a larger span has
no fewer lines (`OnLinesOf.lineCount_le`), its trimmed text has no fewer characters
(`isInfix_trim`), and a byte that is neither blank nor in a comment or an import is in it as well.
For the last two checks the walk over the spans is first read as a statement about positions
(`blankOutsideFrom_iff`), which holds because the spans come in order of their starts.
-/

namespace CodeChallenges

namespace Span

/-- A position is that of a byte of the span. -/
def Covers (s : Span) (k : Nat) : Prop :=
  s.start ≤ k ∧ k < s.stop

theorem le_iff {s t : Span} :
    s.le t = true ↔ toLex (s.start, s.stop) ≤ toLex (t.start, t.stop) := by
  simp only [le, Prod.Lex.toLex_le_toLex, Bool.or_eq_true, Bool.and_eq_true, decide_eq_true_eq,
    beq_iff_eq]

/-- Sorted spans come in order of their starts. -/
theorem pairwise_sorted (spans : List Span) :
    (sorted spans).Pairwise (fun s t => s.start ≤ t.start) := by
  have hsorted := pairwise_mergeSort_key (fun s : Span => toLex (s.start, s.stop))
    (fun _ _ => le_iff) spans
  refine hsorted.imp fun {s t} h => ?_
  rcases Prod.Lex.toLex_le_toLex.mp h with hlt | ⟨heq, -⟩
  · exact Nat.le_of_lt hlt
  · exact Nat.le_of_eq heq

end Span

namespace Text.Utf8

/-- The text between two boundaries is a piece of the text between boundaries around them. -/
theorem isInfix_decodeLossy_slice {bytes : List UInt8} {a b i j : Nat} (ha : IsBoundary bytes a)
    (hi : IsBoundary bytes i) (hj : IsBoundary bytes j) (hb : IsBoundary bytes b) (hai : a ≤ i)
    (hij : i ≤ j) (hjb : j ≤ b) :
    decodeLossy (slice bytes i j) <:+: decodeLossy (slice bytes a b) := by
  obtain ⟨front, hfront⟩ := ha.exists_encode hi hai
  obtain ⟨inner, hinner⟩ := hi.exists_encode hj hij
  obtain ⟨back, hback⟩ := hj.exists_encode hb hjb
  have houter : slice bytes a b = encode (front ++ inner ++ back) := by
    rw [encode_append, encode_append, ← hfront, ← hinner, ← hback, slice_append bytes hai hij,
      slice_append bytes (Nat.le_trans hai hij) hjb]
  rw [hinner, houter, decodeLossy_encode, decodeLossy_encode]
  exact List.infix_append front inner back

end Text.Utf8

namespace Selection

/-- The bytes from `pos` to `stop` are blank wherever no span covers them. -/
def BlankBetween (source : List UInt8) (spans : List Span) (pos stop : Nat) : Prop :=
  ∀ k, pos ≤ k → k < stop → (∀ s ∈ spans, ¬ s.Covers k) →
    ∀ b ∈ source[k]?, Text.isBlankByte b = true

/-- A span that lies outside the range says nothing about it. -/
theorem blankBetween_cons_of_outside {source : List UInt8} {s : Span} {spans : List Span}
    {pos stop : Nat} (hout : s.stop ≤ pos ∨ stop ≤ s.start) :
    BlankBetween source (s :: spans) pos stop ↔ BlankBetween source spans pos stop := by
  constructor
  · intro h k hpos hstop hnone
    refine h k hpos hstop (List.forall_mem_cons.mpr ⟨?_, hnone⟩)
    intro ⟨_, _⟩
    omega
  · intro h k hpos hstop hnone
    exact h k hpos hstop (List.forall_mem_cons.mp hnone).2

/-- The first span cuts the range in two: before it no span covers a byte. -/
theorem blankBetween_cons_of_inside {source : List UInt8} {s : Span} {spans : List Span}
    {pos stop : Nat} (hafter : ∀ t ∈ spans, s.start ≤ t.start) (hstop : s.start < stop) :
    BlankBetween source (s :: spans) pos stop ↔
      (∀ k, pos ≤ k → k < max pos s.start → ∀ b ∈ source[k]?, Text.isBlankByte b = true) ∧
        BlankBetween source spans (max pos s.stop) stop := by
  constructor
  · intro h
    constructor
    · intro k hpos hk
      refine h k hpos (by omega) (List.forall_mem_cons.mpr ⟨?_, ?_⟩)
      · intro ⟨_, _⟩
        omega
      · intro t ht ⟨_, _⟩
        have := hafter t ht
        omega
    · intro k hpos hk hnone
      refine h k (by omega) hk (List.forall_mem_cons.mpr ⟨?_, hnone⟩)
      intro ⟨_, _⟩
      omega
  · intro ⟨hbefore, hrest⟩ k hpos hk hnone
    obtain ⟨hs, hnone⟩ := List.forall_mem_cons.mp hnone
    by_cases hlt : k < s.start
    · exact hbefore k hpos (by omega)
    · have hpast : s.stop ≤ k := by
        by_contra hin
        exact hs ⟨by omega, by omega⟩
      exact hrest k (by omega) hk hnone

/-- The walk over spans in order of their starts finds whether all bytes outside them are blank. -/
theorem blankOutsideFrom_iff {source : List UInt8} {spans : List Span} {pos stop : Nat}
    (hsorted : spans.Pairwise (fun s t => s.start ≤ t.start)) :
    blankOutsideFrom source stop pos spans = true ↔ BlankBetween source spans pos stop := by
  induction spans generalizing pos with
  | nil =>
      rw [blankOutsideFrom, all_slice_iff]
      constructor
      · intro h k hpos hstop _
        exact h k hpos hstop
      · intro h k hpos hstop
        exact h k hpos hstop (List.forall_mem_nil _)
  | cons s spans ih =>
      obtain ⟨hafter, hsorted⟩ := List.pairwise_cons.mp hsorted
      rw [blankOutsideFrom]
      split
      · rename_i hout
        rw [ih hsorted, blankBetween_cons_of_outside (by simpa using hout)]
      · rename_i hin
        have hstop : s.start < stop := by
          simp only [Bool.or_eq_true, decide_eq_true_eq, not_or] at hin
          omega
        rw [Bool.and_eq_true, ih hsorted, all_slice_iff, blankBetween_cons_of_inside hafter hstop]

/-- If all is blank outside the spans in a chunk, it is so in every chunk inside. -/
theorem blankOutside_of_contains {source : List UInt8} {outer inner : Span} {spans : List Span}
    (hsorted : spans.Pairwise (fun s t => s.start ≤ t.start)) (h : outer.contains inner = true)
    (hblank : blankOutside source outer spans = true) :
    blankOutside source inner spans = true := by
  simp only [Span.contains, Bool.and_eq_true, decide_eq_true_eq] at h
  rw [blankOutside, blankOutsideFrom_iff hsorted] at hblank ⊢
  intro k hpos hstop
  exact hblank k (Nat.le_trans h.1 hpos) (Nat.lt_of_lt_of_le hstop h.2)

/-- A chunk is kept if it is long enough and not all of it is comments, or comments and imports. -/
theorem dropReason_eq_none_iff {chunk : Chunk} {source : List UInt8} {comments masked : List Span}
    {language : Option Language} :
    dropReason chunk source comments masked language = none ↔
      minLinesIn language ≤ chunk.span.lineCount ∧
        minChars ≤ (Text.trim (Text.Utf8.decodeLossy
          (slice source chunk.span.start chunk.span.stop))).length ∧
        blankOutside source chunk.span comments = false ∧
        blankOutside source chunk.span masked = false := by
  unfold dropReason
  dsimp only
  split
  · rename_i hlines
    exact iff_of_false (by simp) fun h => absurd h.1 (Int.not_le.mpr hlines)
  · rename_i hlines
    split
    · rename_i hchars
      exact iff_of_false (by simp) fun h => absurd h.2.1 (Nat.not_le.mpr hchars)
    · rename_i hchars
      cases hcomments : blankOutside source chunk.span comments with
      | true => simp
      | false =>
          cases hmasked : blankOutside source chunk.span masked with
          | true => simp
          | false => simpa using ⟨Int.not_lt.mp hlines, Nat.not_lt.mp hchars⟩

/-- **A chunk around a kept chunk is kept**, if both begin and end between characters. -/
theorem dropReason_eq_none_of_contains {outer inner : Chunk} {source : List UInt8}
    {comments masked : List Span} {language : Option Language}
    (hcomments : comments.Pairwise (fun s t => s.start ≤ t.start))
    (hmasked : masked.Pairwise (fun s t => s.start ≤ t.start))
    (houter : outer.span.OnLinesOf source) (hinner : inner.span.OnLinesOf source)
    (hoplace : Text.Utf8.IsBoundary source outer.span.start ∧
      Text.Utf8.IsBoundary source outer.span.stop)
    (hiplace : Text.Utf8.IsBoundary source inner.span.start ∧
      Text.Utf8.IsBoundary source inner.span.stop)
    (h : outer.span.contains inner.span = true)
    (hkept : dropReason inner source comments masked language = none) :
    dropReason outer source comments masked language = none := by
  obtain ⟨hlines, hchars, hcomment, himport⟩ := dropReason_eq_none_iff.mp hkept
  have hcontent : ∀ spans : List Span, spans.Pairwise (fun s t => s.start ≤ t.start) →
      blankOutside source inner.span spans = false →
      blankOutside source outer.span spans = false := by
    intro spans hsorted hnot
    rw [← Bool.not_eq_true] at hnot ⊢
    exact fun hblank => hnot (blankOutside_of_contains hsorted h hblank)
  have hcount := houter.lineCount_le hinner h
  simp only [Span.contains, Bool.and_eq_true, decide_eq_true_eq] at h
  have hpiece := Text.isInfix_trim (Text.Utf8.isInfix_decodeLossy_slice hoplace.1 hiplace.1 hiplace.2
    hoplace.2 h.1 inner.span.start_le_stop h.2)
  refine dropReason_eq_none_iff.mpr ⟨by omega, ?_, hcontent comments hcomments hcomment,
    hcontent masked hmasked himport⟩
  exact Nat.le_trans hchars hpiece.length_le

end Selection

end CodeChallenges

import CodeChallenges.Proofs.LineMap.Points
/-!
# Moving to line starts

An offset is moved back over spaces and tabs, and it stays there only if that has brought it to the
start of a line.  Which start that is, is settled by the offset: it is where the line of the offset
begins.  So the move is to that place if only indentation lies in between, and none at all otherwise
(`lineStart_eq_ite`).

From the two outcomes of a move everything else follows.  A second move changes nothing
(`lineStart_lineStart`), since a line start has no indentation before it on its line.  No newline
byte is passed, so the offset stays on its line (`rowAt_lineStart`).  And an offset that has been
moved stands before a space or a tab, which are characters of their own
(`OutsideCharacters.lineStart`).
-/

namespace CodeChallenges

open CodeChallenges.Tree (rowAt)
open CodeChallenges.Text.Utf8 (IsBoundary)

/-- Every offset is on a line that begins somewhere. -/
theorem exists_beginsLine (source : List UInt8) (k : Nat) : ∃ p, BeginsLine source p k := by
  obtain ⟨p, hp, -⟩ := LineMap.pointOf_ofBytes source k
  exact ⟨p, hp⟩

/-- A line start from which only indentation leads to an offset is where its line begins. -/
theorem Indented.beginsLine {source : List UInt8} {p k : Nat} (h : Indented source p k)
    (hpk : p ≤ k) (hp : IsLineStart source p) : BeginsLine source p k :=
  ⟨hpk, hp, h.newline_not_mem⟩

theorem all_isIndentByte_iff {source : List UInt8} {p k : Nat} :
    (slice source p k).all isIndentByte = true ↔ Indented source p k := by
  rw [all_slice_iff]
  constructor
  · intro h i b hpi hik hi
    exact h i hpi hik b hi
  · intro h i hpi hik b hi
    exact h i b hpi hik hi

/-- **The line start of an offset** is where its line begins if only indentation lies between the
two, and the offset itself otherwise. -/
theorem lineStart_eq_ite {source : List UInt8} {p k : Nat} (hk : k ≤ source.length)
    (hp : BeginsLine source p k) :
    lineStart source k = if (slice source p k).all isIndentByte then p else k := by
  split
  case isTrue hall =>
    exact lineStart_eq_of_indented hp.le hk hp.isLineStart (all_isIndentByte_iff.mp hall)
  case isFalse hnot =>
    rcases lineStart_cases source hk with hstays | ⟨hle, hstart, hindent⟩
    · exact hstays
    · have heq := hp.unique (hindent.beginsLine hle hstart)
      rw [← heq] at hindent
      exact absurd (all_isIndentByte_iff.mpr hindent) hnot

/-- A line start is its own line start. -/
theorem lineStart_of_isLineStart {source : List UInt8} {p : Nat} (hp : IsLineStart source p)
    (hle : p ≤ source.length) : lineStart source p = p :=
  lineStart_eq_of_indented (Nat.le_refl p) hle hp
    fun _ _ hpi hip _ => absurd hip (Nat.not_lt_of_le hpi)

/-- Moving twice is moving once. -/
theorem lineStart_lineStart {source : List UInt8} {k : Nat} (hk : k ≤ source.length) :
    lineStart source (lineStart source k) = lineStart source k := by
  rcases lineStart_cases source hk with hstays | ⟨hle, hstart, -⟩
  · rw [hstays, hstays]
  · exact lineStart_of_isLineStart hstart (Nat.le_trans hle hk)

/-- A move stays on the line. -/
theorem rowAt_lineStart {source : List UInt8} {k : Nat} (hk : k ≤ source.length) :
    rowAt source (lineStart source k) = rowAt source k := by
  rcases lineStart_cases source hk with hstays | ⟨hle, -, hindent⟩
  · rw [hstays]
  · exact (hindent.rowAt_eq hle).symm

/-! ## Characters -/

/-- A byte that goes on a character, and does not begin one. -/
def isContinuationByte (b : UInt8) : Bool :=
  0x80 ≤ b && b ≤ 0xbf

/-- No byte that goes on a character stands at an offset.  This can be asked of any bytes, also of
those that are no text. -/
def OutsideCharacters (source : List UInt8) (k : Nat) : Prop :=
  ∀ b, source[k]? = some b → isContinuationByte b = false

theorem not_isContinuationByte_of_isIndentByte {b : UInt8} (h : isIndentByte b = true) :
    isContinuationByte b = false := by
  simp only [isIndentByte, Bool.or_eq_true, beq_iff_eq] at h
  rcases h with rfl | rfl
  · decide
  · decide

/-- A move does not end inside a character if it does not begin inside one. -/
theorem OutsideCharacters.lineStart {source : List UInt8} {k : Nat} (h : OutsideCharacters source k)
    (hk : k ≤ source.length) : OutsideCharacters source (lineStart source k) := by
  rcases lineStart_cases source hk with hstays | ⟨hle, -, hindent⟩
  · rw [hstays]
    exact h
  · rcases Nat.lt_or_eq_of_le hle with hlt | heq
    · intro b hb
      exact not_isContinuationByte_of_isIndentByte (hindent _ b (Nat.le_refl _) hlt hb)
    · rw [heq]
      exact h

/-! ## The laws of the move -/

/-- **Moving to the line start** of an offset of a file always succeeds.  It leads to where the line
of the offset begins if only spaces and tabs lie in between, and else to the offset itself.  A
second move changes nothing, the line remains the same, and an offset between two characters is
moved to one between two characters.  Moves keep the order of offsets. -/
theorem lineStart_laws (bytes : List UInt8) :
    (∀ k : Nat, k ≤ bytes.length → ∃ p r : Nat, BeginsLine bytes p k ∧
      r = (if (slice bytes p k).all isIndentByte then p else k) ∧
      lineStart? bytes k = .ok r ∧
      lineStart? bytes r = .ok r ∧
      (LineMap.ofBytes bytes).line r = (LineMap.ofBytes bytes).line k ∧
      (OutsideCharacters bytes k → OutsideCharacters bytes r) ∧
      (IsBoundary bytes k → IsBoundary bytes r)) ∧
    ∀ j k : Nat, j ≤ k → k ≤ bytes.length → ∀ r s : Int,
      lineStart? bytes j = .ok r → lineStart? bytes k = .ok s → r ≤ s := by
  constructor
  · intro k hk
    obtain ⟨p, hp⟩ := exists_beginsLine bytes k
    have hle := Nat.le_trans (lineStart_le bytes hk) hk
    have hline : (LineMap.ofBytes bytes).line k = .ok (rowAt bytes k + 1) :=
      LineMap.line_ofBytes_eq_ok_iff.mpr ⟨k, rfl, hk, rfl⟩
    have hmoved : (LineMap.ofBytes bytes).line (lineStart bytes k) = .ok (rowAt bytes k + 1) :=
      LineMap.line_ofBytes_eq_ok_iff.mpr ⟨_, rfl, hle, by rw [rowAt_lineStart hk]⟩
    refine ⟨p, lineStart bytes k, hp, lineStart_eq_ite hk hp, ?_, ?_, ?_, ?_, ?_⟩
    · exact lineStart?_natCast_eq_ok_iff.mpr ⟨hk, rfl⟩
    · exact lineStart?_natCast_eq_ok_iff.mpr ⟨hle, by rw [lineStart_lineStart hk]⟩
    · rw [hmoved, hline]
    · intro houtside
      exact houtside.lineStart hk
    · exact lineStart_isBoundary
  · intro j k hjk hk r s hr hs
    obtain ⟨-, rfl⟩ := lineStart?_natCast_eq_ok_iff.mp hr
    obtain ⟨-, rfl⟩ := lineStart?_natCast_eq_ok_iff.mp hs
    exact Int.ofNat_le.mpr (lineStart_mono hjk hk)

/-- A line that is indented by a space and a tab, with another space further on. -/
def indentedLine : List UInt8 := [0x61, newlineByte, 0x20, 0x09, 0x62, 0x20, 0x63]

/-- From the first character after the indentation the move leads to the start of the line; from the
next one it does not, since a character stands in between. -/
theorem lineStart_laws_sample :
    (4 ≤ indentedLine.length ∧ lineStart? indentedLine 4 = .ok 2) ∧
    (6 ≤ indentedLine.length ∧ lineStart? indentedLine 6 = .ok 6) ∧ (2 : Int) ≤ 6 := by
  have hline : IsLineStart indentedLine 2 := .inr ⟨1, rfl, rfl⟩
  obtain ⟨hmoves, horder⟩ := lineStart_laws indentedLine
  obtain ⟨p, r, hp, hr, hfour, -⟩ := hmoves 4 (by decide)
  obtain ⟨q, s, hq, hs, hsix, -⟩ := hmoves 6 (by decide)
  obtain rfl := hp.unique ⟨by decide, hline, by decide⟩
  obtain rfl := hq.unique ⟨by decide, hline, by decide⟩
  rw [if_pos (by decide)] at hr
  rw [if_neg (by decide)] at hs
  subst hr hs
  exact ⟨⟨by decide, hfour⟩, ⟨by decide, hsix⟩, horder 4 6 (by decide) (by decide) _ _ hfour hsix⟩

end CodeChallenges

import CodeChallenges.Proofs.LineMap
import Mathlib.Data.Prod.Lex
import Mathlib.Order.Monotone.Basic
/-!
# Points of a file

The map of a file keeps the positions of its newline bytes and nothing else of them.  A look-up
finds an index by binary search, and it takes the column from the position before that index.  What
comes out can be told without positions and without a search: the row counts the newline bytes
before the offset, and the column counts from the place where the line of the offset begins
(`pointOf_ofBytes`).

There is only one such place (`BeginsLine.unique`), and two offsets of the same row share it.  So a
later offset has a later point, first by rows and then by columns (`key_strictMono`), and no two
offsets have the same point.
-/

namespace CodeChallenges

open CodeChallenges.Tree (rowAt)

/-! ## Where the line of an offset begins -/

/-- The line that holds an offset begins at `p`: a line starts there, and no newline byte lies
between that place and the offset. -/
structure BeginsLine (source : List UInt8) (p k : Nat) : Prop where
  le : p ≤ k
  isLineStart : IsLineStart source p
  unbroken : newlineByte ∉ slice source p k

/-- No line starts after the place where the line of an offset begins and before the offset. -/
theorem BeginsLine.le_of_isLineStart {source : List UInt8} {p q k : Nat}
    (h : BeginsLine source p k) (hq : IsLineStart source q) (hqk : q ≤ k) : q ≤ p := by
  rcases hq with rfl | ⟨i, rfl, hi⟩
  · exact Nat.zero_le p
  · by_contra hlt
    exact h.unbroken (mem_slice_iff.mpr ⟨i, by omega, by omega, hi⟩)

theorem BeginsLine.unique {source : List UInt8} {p q k : Nat} (hp : BeginsLine source p k)
    (hq : BeginsLine source q k) : p = q :=
  Nat.le_antisymm (hq.le_of_isLineStart hp.isLineStart hp.le)
    (hp.le_of_isLineStart hq.isLineStart hq.le)

/-- Two offsets of one row are on one line. -/
theorem BeginsLine.of_rowAt_eq {source : List UInt8} {p k l : Nat} (h : BeginsLine source p k)
    (hkl : k ≤ l) (hrow : rowAt source k = rowAt source l) : BeginsLine source p l := by
  have hnone : newlineByte ∉ slice source k l := by
    intro hmem
    have hcount := List.count_pos_iff.mpr hmem
    have hadd := rowAt_eq_add source hkl
    omega
  refine ⟨Nat.le_trans h.le hkl, h.isLineStart, ?_⟩
  intro hmem
  rw [← slice_append source h.le hkl] at hmem
  rcases List.mem_append.mp hmem with hbefore | hafter
  · exact h.unbroken hbefore
  · exact hnone hafter

/-! ## Newline positions -/

/-- The positions of newline bytes are where the file has them. -/
theorem mem_newlinesFrom_iff {bytes : List UInt8} {pos p : Nat} :
    p ∈ newlinesFrom pos bytes ↔ ∃ i, p = pos + i ∧ bytes[i]? = some newlineByte := by
  induction bytes generalizing pos with
  | nil => simp [newlinesFrom]
  | cons b rest ih =>
      have hrest : p ∈ newlinesFrom (pos + 1) rest ↔
          ∃ i, p = pos + (i + 1) ∧ (b :: rest)[i + 1]? = some newlineByte := by
        simp only [ih, List.getElem?_cons_succ, Nat.add_assoc, Nat.add_comm 1]
      have hsplit : p ∈ newlinesFrom pos (b :: rest) ↔
          (b = newlineByte ∧ p = pos) ∨ p ∈ newlinesFrom (pos + 1) rest := by
        by_cases hb : b = newlineByte <;> simp [newlinesFrom, hb]
      rw [hsplit, hrest]
      constructor
      · rintro (⟨rfl, rfl⟩ | ⟨i, hp, hi⟩)
        · exact ⟨0, rfl, rfl⟩
        · exact ⟨i + 1, hp, hi⟩
      · rintro ⟨i, hp, hi⟩
        cases i with
        | zero => exact .inl ⟨Option.some.inj hi, hp⟩
        | succ i => exact .inr ⟨i, hp, hi⟩

namespace LineMap

/-- A newline byte has its position among those below the row of an offset if it lies before the
offset. -/
theorem exists_position {bytes : List UInt8} {i offset : Nat} (hi : bytes[i]? = some newlineByte)
    (hlt : i < offset) :
    ∃ j, ∃ hj : j < (newlinesFrom 0 bytes).length,
      (newlinesFrom 0 bytes)[j] = i ∧ j < (ofBytes bytes).rowOf offset := by
  have hmem : i ∈ newlinesFrom 0 bytes := mem_newlinesFrom_iff.mpr ⟨i, (Nat.zero_add i).symm, hi⟩
  obtain ⟨j, hj, rfl⟩ := List.mem_iff_getElem.mp hmem
  refine ⟨j, hj, rfl, ?_⟩
  by_contra hrow
  have habove := (between_rowOf bytes offset).above j hj (Nat.le_of_not_lt hrow)
  rw [List.getElem_toArray] at habove
  omega

/-! ## Rows and columns -/

/-- **The point of an offset** has the number of newline bytes before the offset as its row, and its
column is counted from where the line begins. -/
theorem pointOf_ofBytes (bytes : List UInt8) (offset : Nat) :
    ∃ p, BeginsLine bytes p offset ∧
      (ofBytes bytes).pointOf offset = ⟨rowAt bytes offset, offset - p⟩ := by
  have hrow := rowOf_ofBytes bytes offset
  unfold pointOf
  split
  case h_1 hzero =>
    refine ⟨0, ⟨Nat.zero_le _, .inl rfl, ?_⟩, ?_⟩
    · intro hmem
      obtain ⟨i, -, hlt, hi⟩ := mem_slice_iff.mp hmem
      obtain ⟨j, -, -, hj⟩ := exists_position hi hlt
      omega
    · simp only [← hrow, hzero, Nat.sub_zero]
  case h_2 row hsucc =>
    -- The last newline byte before the offset has its position just below the row.
    have hbetween := between_rowOf bytes offset
    have hsize : row < (newlinesFrom 0 bytes).length := by
      have hle := hbetween.hi_le_size
      rw [hsucc, List.size_toArray] at hle
      exact hle
    have hlast := hbetween.below row hsize (by omega)
    rw [List.getElem_toArray] at hlast
    obtain ⟨q, hq, hnewline⟩ := mem_newlinesFrom_iff.mp (List.getElem_mem hsize)
    rw [Nat.zero_add] at hq
    rw [hq] at hlast
    refine ⟨q + 1, ⟨hlast, .inr ⟨q, rfl, hnewline⟩, ?_⟩, ?_⟩
    · intro hmem
      obtain ⟨i, hqi, hlt, hi⟩ := mem_slice_iff.mp hmem
      obtain ⟨j, hj, rfl, hjrow⟩ := exists_position hi hlt
      rcases Nat.lt_or_eq_of_le (Nat.le_of_lt_succ (hsucc ▸ hjrow)) with hjlt | rfl
      · have hascending := newlinesFrom_ascending 0 bytes
        have := List.pairwise_iff_getElem.mp hascending j row hj hsize hjlt
        omega
      · omega
    · have hget : (ofBytes bytes).newlines.getD row 0 = q := by
        simp [ofBytes, hsize, hq]
      simp only [← hrow, hsucc, hget, Nat.sub_sub]

/-! ## The order of points -/

/-- What points are ordered by: rows, and within a row columns. -/
def Point.key (p : Point) : Nat ×ₗ Nat :=
  toLex (p.row, p.column)

theorem Point.key_injective : Function.Injective Point.key := by
  intro p q h
  obtain ⟨hrow, hcolumn⟩ := Prod.mk.inj (toLex.injective h)
  cases p
  cases q
  simp only at hrow hcolumn
  rw [hrow, hcolumn]

/-- **Later offsets have later points.** -/
theorem key_strictMono (bytes : List UInt8) :
    StrictMono fun offset => ((ofBytes bytes).pointOf offset).key := by
  intro k l hkl
  obtain ⟨p, hp, hk⟩ := pointOf_ofBytes bytes k
  obtain ⟨q, hq, hl⟩ := pointOf_ofBytes bytes l
  simp only [hk, hl, Point.key, Prod.Lex.toLex_lt_toLex]
  rcases Nat.lt_or_eq_of_le (Tree.rowAt_mono bytes (Nat.le_of_lt hkl)) with hlt | hrow
  · exact .inl hlt
  · refine .inr ⟨hrow, ?_⟩
    have hpq : p = q := (hp.of_rowAt_eq (Nat.le_of_lt hkl) hrow).unique hq
    have hle := hp.le
    omega

/-- Only an offset that is not in the file, its end included, is refused. -/
theorem faultOf_check (m : LineMap) (offset : Int) :
    faultOf (m.check offset) =
      if offset < 0 ∨ (m.length : Int) < offset then some (.outOfBounds offset m.length)
      else none := by
  unfold check
  split
  case isTrue hin =>
    have hnot : ¬ (offset < 0 ∨ (m.length : Int) < offset) := by omega
    simp only [faultOf, if_neg hnot]
  case isFalse hout =>
    have hor : offset < 0 ∨ (m.length : Int) < offset := by omega
    simp only [faultOf, if_pos hor]

theorem point_eq_error_iff {m : LineMap} {offset : Int} {fault : Fault} :
    m.point offset = .error fault ↔
      (offset < 0 ∨ (m.length : Int) < offset) ∧ fault = .outOfBounds offset m.length := by
  rw [← faultOf_eq_some_iff, point, faultOf_map, faultOf_check]
  simp [eq_comm]

theorem point_eq_ok_iff {m : LineMap} {offset : Int} {p : Point} :
    m.point offset = .ok p ↔ ∃ k : Nat, offset = k ∧ k ≤ m.length ∧ m.pointOf k = p := by
  simp only [point, map_eq_ok_iff, check_eq_ok_iff, and_assoc]

/-- **A look-up fails** exactly for an offset that is not in the file, its end included.  For any
other it tells the row, which is the number of newline bytes before the offset, and the column,
counted from where the line begins.  The point tells the offset, and points are in the order of
their offsets. -/
theorem point_locates (bytes : List UInt8) :
    (∀ (offset : Int) (fault : Fault),
      (ofBytes bytes).point offset = .error fault ↔
        (offset < 0 ∨ (bytes.length : Int) < offset) ∧
          fault = .outOfBounds offset bytes.length) ∧
    (∀ offset : Nat, offset ≤ bytes.length → ∃ p, BeginsLine bytes p offset ∧
      (ofBytes bytes).point offset = .ok ⟨rowAt bytes offset, offset - p⟩) ∧
    ∀ (a b : Int) (p q : Point),
      (ofBytes bytes).point a = .ok p → (ofBytes bytes).point b = .ok q →
        (p = q ↔ a = b) ∧ (p.key < q.key ↔ a < b) := by
  refine ⟨fun offset fault => point_eq_error_iff, ?_, ?_⟩
  · intro offset hle
    obtain ⟨p, hp, hpoint⟩ := pointOf_ofBytes bytes offset
    exact ⟨p, hp, point_eq_ok_iff.mpr ⟨offset, rfl, hle, hpoint⟩⟩
  · intro a b p q ha hb
    obtain ⟨k, rfl, -, rfl⟩ := point_eq_ok_iff.mp ha
    obtain ⟨l, rfl, -, rfl⟩ := point_eq_ok_iff.mp hb
    have hmono := key_strictMono bytes
    constructor
    · rw [← Point.key_injective.eq_iff, hmono.injective.eq_iff, Int.natCast_inj]
    · rw [hmono.lt_iff_lt, Int.ofNat_lt]

/-- Two lines, the first with a character of two bytes. -/
def twoLines : List UInt8 := [0xc3, 0xa9, newlineByte, 0x61, 0x62]

/-- The newline byte belongs to the first row, and the end of the file is the third column of the
second. -/
theorem point_locates_sample :
    (2 ≤ twoLines.length ∧ (ofBytes twoLines).point 2 = .ok ⟨0, 2⟩) ∧
    (5 ≤ twoLines.length ∧ (ofBytes twoLines).point 5 = .ok ⟨1, 2⟩) ∧
    Point.key ⟨0, 2⟩ < Point.key ⟨1, 2⟩ := by
  have hfirst : BeginsLine twoLines 0 2 := ⟨by decide, .inl rfl, by decide⟩
  have hsecond : BeginsLine twoLines 3 5 := ⟨by decide, .inr ⟨2, rfl, rfl⟩, by decide⟩
  obtain ⟨-, htells, horder⟩ := point_locates twoLines
  obtain ⟨p, hp, htwo⟩ := htells 2 (by decide)
  obtain ⟨q, hq, hfive⟩ := htells 5 (by decide)
  obtain rfl := hp.unique hfirst
  obtain rfl := hq.unique hsecond
  exact ⟨⟨by decide, htwo⟩, ⟨by decide, hfive⟩, (horder 2 5 _ _ htwo hfive).2.mpr (by decide)⟩

end LineMap

end CodeChallenges

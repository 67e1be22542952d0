import CodeChallenges.LineMap
import CodeChallenges.Tree.Extent
import CodeChallenges.Proofs.Outcome
import CodeChallenges.Proofs.Text.Utf8
/-!
# Lines of a file

The row of an offset is the number of newline bytes before it; the binary search over the
newline positions finds just that number (`rowOf_ofBytes`), so that a span of the map carries the
lines of its bytes (`span_eq_ok`).

The start of the line of an offset is the offset itself or a line start with nothing but
indentation between the two.  From that alone follow the laws that later modules use: moving to
the line start keeps the order of offsets (`lineStart_mono`) and lands between characters
(`lineStart_isBoundary`).
-/

namespace CodeChallenges

open CodeChallenges.Tree (rowAt)

/-! ## Slices -/

theorem length_slice (source : List UInt8) (i j : Nat) :
    (slice source i j).length = min j source.length - i := by
  simp [slice]

theorem slice_slice (source : List UInt8) {a b i j : Nat} (h : a + j ≤ b) :
    slice (slice source a b) i j = slice source (a + i) (a + j) := by
  apply List.ext_getElem?
  intro k
  simp only [slice, List.getElem?_drop, List.getElem?_take]
  by_cases hk : i + k < j
  · rw [if_pos hk, if_pos (by omega), if_pos (by omega), Nat.add_assoc]
  · rw [if_neg hk, if_neg (by omega)]

/-- A range within another one, counted from its start. -/
theorem slice_slice_sub (source : List UInt8) {a b i j : Nat} (hai : a ≤ i) (hij : i ≤ j)
    (hjb : j ≤ b) : slice (slice source a b) (i - a) (j - a) = slice source i j := by
  have hcut := slice_slice source (a := a) (b := b) (i := i - a) (j := j - a) (by omega)
  rwa [Nat.add_sub_cancel' hai, Nat.add_sub_cancel' (Nat.le_trans hai hij)] at hcut

theorem take_slice (source : List UInt8) {a b i : Nat} (hai : a ≤ i) (hib : i ≤ b) :
    (slice source a b).take (i - a) = slice source a i := by
  have hcut := slice_slice_sub source (Nat.le_refl a) hai hib
  rwa [Nat.sub_self] at hcut

theorem getElem?_slice (source : List UInt8) {i j k : Nat} (h : i + k < j) :
    (slice source i j)[k]? = source[i + k]? := by
  simp only [slice, List.getElem?_drop, List.getElem?_take, if_pos h]

theorem take_eq_append_slice (source : List UInt8) {p k : Nat} (hpk : p ≤ k) :
    source.take k = source.take p ++ slice source p k := by
  have hcut := List.take_append_drop p (source.take k)
  rw [List.take_take, Nat.min_eq_left hpk] at hcut
  exact hcut.symm

/-- Two slices in a row are one slice. -/
theorem slice_append (source : List UInt8) {i j k : Nat} (hij : i ≤ j) (hjk : j ≤ k) :
    slice source i j ++ slice source j k = slice source i k := by
  have htake : source.take j = (source.take k).take j := by
    rw [List.take_take, Nat.min_eq_left hjk]
  calc slice source i j ++ slice source j k
      = ((source.take k).take j).drop i ++ ((source.take k).drop i).drop (j - i) := by
        rw [slice, slice, htake, List.drop_drop, Nat.add_sub_cancel' hij]
    _ = slice source i k := by
        rw [List.drop_take, List.take_append_drop, slice]

/-- The bytes of a slice are those that stand at its positions. -/
theorem mem_slice_iff {source : List UInt8} {b : UInt8} {i j : Nat} :
    b ∈ slice source i j ↔ ∃ k, i ≤ k ∧ k < j ∧ source[k]? = some b := by
  rw [List.mem_iff_getElem?]
  constructor
  · rintro ⟨n, hn⟩
    have hlt := (List.getElem?_eq_some_iff.mp hn).1
    rw [length_slice] at hlt
    have hnj : i + n < j := by omega
    rw [getElem?_slice source hnj] at hn
    exact ⟨i + n, Nat.le_add_right i n, hnj, hn⟩
  · rintro ⟨k, hik, hkj, hk⟩
    refine ⟨k - i, ?_⟩
    rw [getElem?_slice source (by omega), Nat.add_sub_cancel' hik]
    exact hk

/-- A test of all bytes of a slice is a test of every position in it. -/
theorem all_slice_iff {source : List UInt8} {p : UInt8 → Bool} {i j : Nat} :
    (slice source i j).all p = true ↔ ∀ k, i ≤ k → k < j → ∀ b ∈ source[k]?, p b = true := by
  simp only [List.all_eq_true, mem_slice_iff]
  constructor
  · intro h k hik hkj b hb
    exact h b ⟨k, hik, hkj, hb⟩
  · rintro h b ⟨k, hik, hkj, hb⟩
    exact h k hik hkj b hb

/-- The newline bytes before an offset are those before an earlier one and those between the two. -/
theorem rowAt_eq_add (source : List UInt8) {p k : Nat} (hpk : p ≤ k) :
    rowAt source k = rowAt source p + (slice source p k).count newlineByte := by
  rw [rowAt, take_eq_append_slice source hpk, List.count_append, rowAt]

/-! ## The newline positions -/

theorem newlinesFrom_ge {bytes : List UInt8} {pos p : Nat} (h : p ∈ newlinesFrom pos bytes) :
    pos ≤ p := by
  induction bytes generalizing pos with
  | nil => simp [newlinesFrom] at h
  | cons b rest ih =>
      simp only [newlinesFrom] at h
      split at h
      · rcases List.mem_cons.mp h with rfl | h
        · exact Nat.le_refl _
        · exact Nat.le_of_succ_le (ih h)
      · exact Nat.le_of_succ_le (ih h)

theorem newlinesFrom_ascending (pos : Nat) (bytes : List UInt8) :
    (newlinesFrom pos bytes).Pairwise (· < ·) := by
  induction bytes generalizing pos with
  | nil => exact List.Pairwise.nil
  | cons b rest ih =>
      simp only [newlinesFrom]
      split
      · exact List.pairwise_cons.mpr ⟨fun p hp => newlinesFrom_ge hp, ih (pos + 1)⟩
      · exact ih (pos + 1)

/-- As many newline positions lie before an offset as there are newline bytes before it. -/
theorem countP_newlinesFrom (bytes : List UInt8) (pos k : Nat) :
    (newlinesFrom pos bytes).countP (· < pos + k) = rowAt bytes k := by
  induction bytes generalizing pos k with
  | nil => simp [newlinesFrom, rowAt]
  | cons b rest ih =>
      cases k with
      | zero =>
          rw [List.countP_eq_zero.mpr]
          · simp [rowAt]
          · intro p hp
            have := newlinesFrom_ge hp
            simpa using this
      | succ k =>
          have hk : pos + (k + 1) = pos + 1 + k := by omega
          simp only [newlinesFrom, rowAt, List.take_succ_cons, List.count_cons]
          split
          · rw [List.countP_cons_of_pos (by simp), hk, ih]
            rfl
          · rw [hk, ih]
            rfl

namespace LineMap

/-! ## The search -/

/-- What the search keeps: positions before `lo` lie below the offset, those from `hi` on do
not. -/
structure Between (newlines : Array Nat) (offset lo hi : Nat) : Prop where
  lo_le_hi : lo ≤ hi
  hi_le_size : hi ≤ newlines.size
  below : ∀ i (h : i < newlines.size), i < lo → newlines[i] < offset
  above : ∀ i (h : i < newlines.size), hi ≤ i → offset ≤ newlines[i]

theorem search_between {newlines : Array Nat} {offset lo hi : Nat}
    (hs : newlines.toList.Pairwise (· < ·)) (h : Between newlines offset lo hi) :
    Between newlines offset (search newlines offset lo hi) (search newlines offset lo hi) := by
  have mono : ∀ {i j : Nat} (hi : i < newlines.size) (hj : j < newlines.size), i ≤ j →
      newlines[i] ≤ newlines[j] := by
    intro i j hi hj hij
    rcases Nat.lt_or_eq_of_le hij with hlt | rfl
    · exact Nat.le_of_lt (List.pairwise_iff_getElem.mp hs i j hi hj hlt)
    · exact Nat.le_refl _
  fun_induction search newlines offset lo hi with
  | case1 lo hi hlt mid hbelow ih =>
      have hmid : mid < newlines.size := by have := h.hi_le_size; omega
      rw [Array.getD_eq_getD_getElem?, Array.getElem?_eq_getElem hmid, Option.getD_some] at hbelow
      refine ih ⟨by omega, h.hi_le_size, fun i hi hle => ?_, h.above⟩
      exact Nat.lt_of_le_of_lt (mono hi hmid (by omega)) hbelow
  | case2 lo hi hlt mid habove ih =>
      have hmid : mid < newlines.size := by have := h.hi_le_size; omega
      rw [Array.getD_eq_getD_getElem?, Array.getElem?_eq_getElem hmid, Option.getD_some] at habove
      refine ih ⟨by omega, by omega, h.below, fun i hi hle => ?_⟩
      exact Nat.le_trans (Nat.le_of_not_lt habove) (mono hmid hi hle)
  | case3 lo hi hge =>
      have heq : hi = lo := by have := h.lo_le_hi; omega
      exact heq ▸ h

/-- A place that parts the positions below an offset from the others is their number. -/
theorem countP_of_between {newlines : Array Nat} {offset k : Nat}
    (h : Between newlines offset k k) : newlines.toList.countP (· < offset) = k := by
  have hlen : k ≤ newlines.toList.length := h.hi_le_size
  rw [← List.take_append_drop k newlines.toList, List.countP_append]
  have hbelow : (newlines.toList.take k).countP (· < offset) = (newlines.toList.take k).length := by
    rw [List.countP_eq_length]
    intro p hp
    obtain ⟨i, hi, rfl⟩ := List.mem_take_iff_getElem.mp hp
    simpa using h.below i (by simp at hi; omega) (by omega)
  have habove : (newlines.toList.drop k).countP (· < offset) = 0 := by
    rw [List.countP_eq_zero]
    intro p hp
    obtain ⟨i, hi, rfl⟩ := List.mem_drop_iff_getElem.mp hp
    simpa using h.above (k + i) (by simp at hi; omega) (by omega)
  rw [hbelow, habove, List.length_take]
  omega

/-- The row of an offset parts the newline positions before the offset from the others. -/
theorem between_rowOf (bytes : List UInt8) (offset : Nat) :
    Between (newlinesFrom 0 bytes).toArray offset ((ofBytes bytes).rowOf offset)
      ((ofBytes bytes).rowOf offset) :=
  search_between (newlinesFrom_ascending 0 bytes)
    ⟨Nat.zero_le _, Nat.le_refl _, fun _ _ h => absurd h (Nat.not_lt_zero _),
      fun _ h hle => absurd h (Nat.not_lt_of_le hle)⟩

/-- The row of an offset is the number of newline bytes before it. -/
theorem rowOf_ofBytes (bytes : List UInt8) (offset : Nat) :
    (ofBytes bytes).rowOf offset = rowAt bytes offset := by
  have hcount := countP_of_between (between_rowOf bytes offset)
  have hrow := countP_newlinesFrom bytes 0 offset
  rw [Nat.zero_add] at hrow
  rw [← hcount, ← hrow]

/-! ## Spans -/

theorem check_eq_ok_iff {m : LineMap} {offset : Int} {k : Nat} :
    m.check offset = .ok k ↔ offset = k ∧ k ≤ m.length := by
  unfold check
  constructor
  · intro h
    split at h
    · rename_i hb
      cases h
      omega
    · cases h
  · rintro ⟨rfl, hk⟩
    rw [if_pos (by omega), Int.toNat_natCast]

theorem point_row (m : LineMap) (k : Nat) : (m.pointOf k).row = m.rowOf k := by
  unfold pointOf
  split
  · rename_i h
    exact h.symm
  · rename_i row h
    exact h.symm

theorem line_ofBytes_eq_ok_iff {bytes : List UInt8} {offset : Int} {row : Nat} :
    (ofBytes bytes).line offset = .ok row ↔
      ∃ k : Nat, offset = k ∧ k ≤ bytes.length ∧ row = rowAt bytes k + 1 := by
  simp only [LineMap.line, point, map_eq_ok_iff]
  constructor
  · rintro ⟨_, ⟨k, hc, rfl⟩, rfl⟩
    obtain ⟨rfl, hk⟩ := check_eq_ok_iff.mp hc
    exact ⟨k, rfl, hk, by rw [point_row, rowOf_ofBytes]⟩
  · rintro ⟨k, rfl, hk, rfl⟩
    exact ⟨_, ⟨k, check_eq_ok_iff.mpr ⟨rfl, hk⟩, rfl⟩, by rw [point_row, rowOf_ofBytes]⟩

end LineMap

namespace Span

/-- The span of some bytes that begins on a line and goes on for some more lines. -/
def ofSizes (start bytes line more : Nat) : Span where
  start := start
  stop := start + bytes
  firstLine := line + 1
  lastLine := line + 1 + more
  start_le_stop := Nat.le_add_right _ _
  firstLine_pos := Nat.succ_pos _
  firstLine_le_lastLine := Nat.le_add_right _ _

/-- The last byte inside a span, or its start if there is none. -/
def lastByte (s : Span) : Nat :=
  if s.start < s.stop then s.stop - 1 else s.start

/-- A span of a file: its bytes are there, and its lines are those of its first and last byte. -/
structure OnLinesOf (bytes : List UInt8) (s : Span) : Prop where
  stop_le : s.stop ≤ bytes.length
  firstLine_eq : s.firstLine = rowAt bytes s.start + 1
  lastLine_eq : s.lastLine = rowAt bytes s.lastByte + 1

/-- Spans of one file that agree in their bytes agree in their lines. -/
theorem OnLinesOf.eq_of_range_eq {bytes : List UInt8} {s t : Span} (hs : s.OnLinesOf bytes)
    (ht : t.OnLinesOf bytes) (h : s.range = t.range) : s = t := by
  obtain ⟨hstart, hstop⟩ := Prod.mk.inj h
  have hlast : s.lastByte = t.lastByte := by
    rw [lastByte, lastByte, hstart, hstop]
  have hfirstLine := hs.firstLine_eq
  have hlastLine := hs.lastLine_eq
  rw [hstart, ← ht.firstLine_eq] at hfirstLine
  rw [hlast, ← ht.lastLine_eq] at hlastLine
  cases s
  cases t
  simp only at hstart hstop hfirstLine hlastLine
  subst hstart hstop hfirstLine hlastLine
  rfl

/-- The lines of a span that is not empty are lines of every span that contains it. -/
theorem OnLinesOf.lines_inside {bytes : List UInt8} {outer inner : Span}
    (ho : outer.OnLinesOf bytes) (hi : inner.OnLinesOf bytes)
    (h : outer.contains inner = true) (hinner : inner.start < inner.stop) :
    outer.firstLine ≤ inner.firstLine ∧ inner.lastLine ≤ outer.lastLine := by
  simp only [contains, Bool.and_eq_true, decide_eq_true_eq] at h
  have hlast : inner.lastByte ≤ outer.lastByte := by
    unfold lastByte
    rw [if_pos hinner, if_pos (by omega)]
    omega
  rw [hi.firstLine_eq, hi.lastLine_eq, ho.firstLine_eq, ho.lastLine_eq]
  exact ⟨Nat.succ_le_succ (Tree.rowAt_mono bytes h.1),
    Nat.succ_le_succ (Tree.rowAt_mono bytes hlast)⟩

theorem OnLinesOf.lineCount_of_empty {bytes : List UInt8} {s : Span} (h : s.OnLinesOf bytes)
    (hempty : ¬ s.start < s.stop) : s.lineCount = 1 := by
  rw [lineCount, h.firstLine_eq, h.lastLine_eq, lastByte, if_neg hempty, Nat.sub_self]

/-- A span that contains another has no fewer lines. -/
theorem OnLinesOf.lineCount_le {bytes : List UInt8} {outer inner : Span}
    (ho : outer.OnLinesOf bytes) (hi : inner.OnLinesOf bytes)
    (h : outer.contains inner = true) : inner.lineCount ≤ outer.lineCount := by
  by_cases hinner : inner.start < inner.stop
  · obtain ⟨hfirst, hlast⟩ := ho.lines_inside hi h hinner
    unfold lineCount
    omega
  · rw [hi.lineCount_of_empty hinner]
    exact Nat.le_add_left 1 _

theorem ofInts_eq_ok {start stop first last : Int} {s : Span}
    (h : ofInts start stop first last = .ok s) :
    start = s.start ∧ stop = s.stop ∧ first = s.firstLine ∧ last = s.lastLine := by
  unfold ofInts at h
  split at h
  · split at h
    · cases h
      simp only
      omega
    · cases h
  · cases h

end Span

namespace LineMap

/-- The span that the map of a file gives to a range of offsets is that range on its lines. -/
theorem span_eq_ok {bytes : List UInt8} {start stop : Int} {s : Span}
    (h : (ofBytes bytes).span start stop = .ok s) :
    start = s.start ∧ stop = s.stop ∧ s.OnLinesOf bytes := by
  unfold span at h
  obtain ⟨k, hstop, h⟩ := bind_eq_ok_iff.mp h
  obtain ⟨first, hfirst, h⟩ := bind_eq_ok_iff.mp h
  obtain ⟨last, hlast, h⟩ := bind_eq_ok_iff.mp h
  obtain ⟨rfl, rfl, hf, hl⟩ := Span.ofInts_eq_ok (mapError_eq_ok_iff.mp h)
  obtain ⟨hk, hle⟩ := check_eq_ok_iff.mp hstop
  obtain ⟨i, hi, -, rfl⟩ := line_ofBytes_eq_ok_iff.mp hfirst
  obtain ⟨j, hj, -, rfl⟩ := line_ofBytes_eq_ok_iff.mp hlast
  refine ⟨rfl, rfl, ?_, ?_, ?_⟩
  · rw [Int.ofNat.inj hk]
    exact hle
  · rw [Int.ofNat.inj hi]
    exact (Int.ofNat.inj hf).symm
  · have hlast : s.lastByte = j := by
      unfold Span.lastByte
      split at hj <;> split <;> omega
    rw [hlast]
    exact (Int.ofNat.inj hl).symm

end LineMap

namespace LineMap

/-- Any two offsets of a file in order have a span. -/
theorem exists_span_eq_ok {bytes : List UInt8} {start stop : Nat} (h : start ≤ stop)
    (hstop : stop ≤ bytes.length) : ∃ s, (ofBytes bytes).span start stop = .ok s := by
  obtain ⟨last, hlast, hstart, hle⟩ : ∃ last : Nat,
      (if (start : Int) < stop then (stop : Int) - 1 else start) = last ∧ start ≤ last ∧
        last ≤ bytes.length := by
    by_cases hlt : start < stop
    · exact ⟨stop - 1, by rw [if_pos (by omega)]; omega, by omega, by omega⟩
    · exact ⟨start, by rw [if_neg (by omega)], Nat.le_refl _, by omega⟩
  have hrow := Tree.rowAt_mono bytes hstart
  have hof : ∃ s, Span.ofInts start stop (rowAt bytes start + 1 : Nat) (rowAt bytes last + 1 : Nat) =
      .ok s := by
    unfold Span.ofInts
    rw [dif_pos (by omega), dif_pos (by omega)]
    exact ⟨_, rfl⟩
  obtain ⟨s, hs⟩ := hof
  refine ⟨s, bind_eq_ok_iff.mpr ⟨stop, check_eq_ok_iff.mpr ⟨rfl, hstop⟩, ?_⟩⟩
  refine bind_eq_ok_iff.mpr ⟨_, line_ofBytes_eq_ok_iff.mpr ⟨start, rfl, by omega, rfl⟩, ?_⟩
  refine bind_eq_ok_iff.mpr ⟨_, line_ofBytes_eq_ok_iff.mpr ⟨last, hlast, hle, rfl⟩, ?_⟩
  exact mapError_eq_ok_iff.mpr hs

end LineMap

/-! ## Line starts -/

/-- The start of the file, or the place after a newline byte. -/
def IsLineStart (source : List UInt8) (p : Nat) : Prop :=
  p = 0 ∨ ∃ q, p = q + 1 ∧ source[q]? = some newlineByte

/-- Every byte from `p` up to `k` is indentation. -/
def Indented (source : List UInt8) (p k : Nat) : Prop :=
  ∀ i b, p ≤ i → i < k → source[i]? = some b → isIndentByte b = true

theorem Indented.mono {source : List UInt8} {p q k l : Nat} (h : Indented source p k)
    (hpq : p ≤ q) (hlk : l ≤ k) : Indented source q l :=
  fun i b hi hil hb => h i b (by omega) (by omega) hb

theorem Indented.of_mem_slice {source : List UInt8} {p k : Nat} (h : Indented source p k) {b : UInt8}
    (hb : b ∈ slice source p k) : isIndentByte b = true := by
  obtain ⟨i, hpi, hik, hi⟩ := mem_slice_iff.mp hb
  exact h i b hpi hik hi

theorem not_isIndentByte_newline : isIndentByte newlineByte = false := by decide

theorem Indented.newline_not_mem {source : List UInt8} {p k : Nat} (h : Indented source p k) :
    newlineByte ∉ slice source p k := by
  intro hmem
  have hindent := h.of_mem_slice hmem
  rw [not_isIndentByte_newline] at hindent
  cases hindent

/-- Indentation stays in its row. -/
theorem Indented.rowAt_eq {source : List UInt8} {p k : Nat} (h : Indented source p k) (hpk : p ≤ k) :
    rowAt source k = rowAt source p := by
  rw [rowAt_eq_add source hpk, List.count_eq_zero.mpr h.newline_not_mem, Nat.add_zero]

theorem lineStart_of_nil {source : List UInt8} {k : Nat}
    (h : (source.take k).reverse.dropWhile isIndentByte = []) : lineStart source k = 0 := by
  simp only [lineStart, h]

theorem lineStart_of_cons {source : List UInt8} {k : Nat} {b : UInt8} {rest : List UInt8}
    (h : (source.take k).reverse.dropWhile isIndentByte = b :: rest) :
    lineStart source k = if b == newlineByte then rest.length + 1 else k := by
  simp only [lineStart, h]

/-- The bytes before an offset, with the indentation at their end apart. -/
theorem take_eq_append_indent (source : List UInt8) (k : Nat) :
    source.take k =
      ((source.take k).reverse.dropWhile isIndentByte).reverse ++
        ((source.take k).reverse.takeWhile isIndentByte).reverse := by
  rw [← List.reverse_append, List.takeWhile_append_dropWhile, List.reverse_reverse]

/-- The line start of an offset is the offset, or a start of a line from which only indentation
leads to it. -/
theorem lineStart_cases (source : List UInt8) {k : Nat} (hk : k ≤ source.length) :
    lineStart source k = k ∨
      lineStart source k ≤ k ∧ IsLineStart source (lineStart source k) ∧
        Indented source (lineStart source k) k := by
  have htake := take_eq_append_indent source k
  have hlen : k = (source.take k).length := by rw [List.length_take]; omega
  -- What the offset is moved back over is the indentation, the second of the two parts.
  have hindent : Indented source ((source.take k).reverse.dropWhile isIndentByte).length k := by
    intro i b hi hik hb
    rw [← List.getElem?_take_of_lt hik, htake, List.getElem?_append_right (by simpa using hi)] at hb
    have hmem := List.mem_reverse.mp (List.mem_of_getElem? hb)
    exact List.all_eq_true.mp List.all_takeWhile b hmem
  have hle : ((source.take k).reverse.dropWhile isIndentByte).length ≤ k := by
    have := (List.dropWhile_suffix isIndentByte (l := (source.take k).reverse)).length_le
    rw [List.length_reverse] at this
    omega
  cases hd : (source.take k).reverse.dropWhile isIndentByte with
  | nil =>
      rw [lineStart_of_nil hd]
      rw [hd] at hindent
      exact .inr ⟨Nat.zero_le k, .inl rfl, hindent⟩
  | cons b rest =>
      rw [lineStart_of_cons hd]
      rw [hd] at htake hindent hle
      by_cases hb : b = newlineByte
      · rw [if_pos (beq_iff_eq.mpr hb)]
        refine .inr ⟨hle, .inr ⟨rest.length, rfl, ?_⟩, hindent⟩
        have hlt : rest.length < k := hle
        rw [← List.getElem?_take_of_lt hlt, htake]
        simp [hb]
      · rw [if_neg (by simpa using hb)]
        exact .inl rfl

theorem lineStart_le (source : List UInt8) {k : Nat} (hk : k ≤ source.length) :
    lineStart source k ≤ k := by
  rcases lineStart_cases source hk with h | h
  · exact Nat.le_of_eq h
  · exact h.1

/-- A span without bytes but for the indentation before them has one line. -/
theorem Span.OnLinesOf.lineCount_of_indentation {source : List UInt8} {s : Span}
    (h : s.OnLinesOf source) {k : Nat} (hk : k ≤ source.length)
    (hstart : s.start = lineStart source k) (hstop : s.stop = k) : s.lineCount = 1 := by
  have hrow : rowAt source s.lastByte = rowAt source s.start := by
    unfold lastByte
    split
    · rename_i hlt
      have hindent : Indented source s.start k := by
        rcases lineStart_cases source hk with heq | ⟨-, -, hindent⟩
        · omega
        · exact hstart ▸ hindent
      exact (hindent.mono (Nat.le_refl _) (by omega)).rowAt_eq (by omega)
    · rfl
  rw [lineCount, h.firstLine_eq, h.lastLine_eq, hrow, Nat.sub_self]

/-- A start of a line from which only indentation leads to an offset is the line start of it. -/
theorem lineStart_eq_of_indented {source : List UInt8} {p k : Nat} (hpk : p ≤ k)
    (hk : k ≤ source.length) (hp : IsLineStart source p) (hi : Indented source p k) :
    lineStart source k = p := by
  have hall : ∀ b ∈ (slice source p k).reverse, isIndentByte b = true :=
    fun b hb => hi.of_mem_slice (List.mem_reverse.mp hb)
  have hdrop : (source.take k).reverse.dropWhile isIndentByte =
      (source.take p).reverse.dropWhile isIndentByte := by
    rw [take_eq_append_slice source hpk, List.reverse_append, List.dropWhile_append_of_pos hall]
  rcases hp with rfl | ⟨q, rfl, hq⟩
  · exact lineStart_of_nil (by rw [hdrop]; rfl)
  · have hlast : source.take (q + 1) = source.take q ++ [newlineByte] := by
      rw [List.take_add_one, hq, Option.toList_some]
    have hlen : (source.take q).length = q := by rw [List.length_take]; omega
    rw [hlast, List.reverse_append, List.reverse_singleton, List.singleton_append,
      List.dropWhile_cons_of_neg (by simp [not_isIndentByte_newline])] at hdrop
    rw [lineStart_of_cons hdrop, if_pos (beq_self_eq_true _), List.length_reverse, hlen]

/-- Moving to line starts keeps the order of offsets. -/
theorem lineStart_mono {source : List UInt8} {a d : Nat} (had : a ≤ d) (hd : d ≤ source.length) :
    lineStart source a ≤ lineStart source d := by
  have ha := lineStart_le source (Nat.le_trans had hd)
  rcases lineStart_cases source hd with h | ⟨hle, hstart, hindent⟩
  · rw [h]
    exact Nat.le_trans ha had
  · by_cases hbefore : a ≤ lineStart source d
    · exact Nat.le_trans ha hbefore
    · -- Only indentation lies between the line start and `a` too, so both share it.
      have := lineStart_eq_of_indented (Nat.le_of_not_le hbefore) (Nat.le_trans had hd) hstart
        (hindent.mono (Nat.le_refl _) had)
      exact Nat.le_of_eq this

/-- The line start of a boundary is a boundary. -/
theorem lineStart_isBoundary {bytes : List UInt8} {k : Nat} (hk : Text.Utf8.IsBoundary bytes k) :
    Text.Utf8.IsBoundary bytes (lineStart bytes k) := by
  rcases lineStart_cases bytes hk.le_length with h | ⟨-, hstart, -⟩
  · rw [h]
    exact hk
  · rcases hstart with h | ⟨q, h, hq⟩
    · rw [h]
      exact Text.Utf8.isBoundary_zero hk.isValid
    · obtain ⟨cs, rfl⟩ := Text.Utf8.isValid_iff.mp hk.isValid
      rw [h]
      exact Text.Utf8.isBoundary_succ_of_ascii hq (by decide)

/-- The offsets from the front that have a line start are those of the file. -/
theorem lineStart?_natCast_eq_ok_iff {source : List UInt8} {k : Nat} {start : Int} :
    lineStart? source k = .ok start ↔ k ≤ source.length ∧ start = lineStart source k := by
  simp only [lineStart?, Bool.or_eq_true, Bool.and_eq_true, decide_eq_true_eq]
  have hfront : ¬ (k : Int) < 0 := by omega
  by_cases hk : k ≤ source.length
  · have hin : ¬ ((source.length : Int) < k ∨ (k : Int) ≤ -source.length ∧ (k : Int) < 0) := by
      omega
    rw [if_neg hin, if_neg hfront, Int.toNat_natCast, Except.ok.injEq]
    exact ⟨fun h => ⟨hk, h.symm⟩, fun h => h.2.symm⟩
  · have hout : (source.length : Int) < k ∨ (k : Int) ≤ -source.length ∧ (k : Int) < 0 := by
      omega
    rw [if_pos hout]
    exact ⟨fun h => (nomatch h), fun h => absurd h.1 hk⟩

end CodeChallenges

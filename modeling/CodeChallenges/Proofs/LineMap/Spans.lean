import CodeChallenges.Proofs.LineMap.Points
/-!
# Spans of a file

Three checks stand between a range of offsets and its span.  The end of the range is looked up
first, then the lines of the start and of the last byte are, and the order of start and end is
checked when the span is made.  Of a range that has no span, `rangeFault` tells which of them
refuses it; the last byte never does.  So a range has a span exactly if its start and its end lie in
the file, in this order (`rangeFault_eq_none_iff`).

The lines of a span follow from its bytes.  It has one line more than newline bytes that are
followed by another byte of the span (`OnLinesOf.lineCount_eq`), and within a larger span it keeps
to the lines of that.
-/

namespace CodeChallenges

open CodeChallenges.Tree (rowAt)

/-- A newline byte at the end of a span adds no line to it, and an empty span has one line. -/
theorem Span.OnLinesOf.lineCount_eq {bytes : List UInt8} {s : Span} (h : s.OnLinesOf bytes) :
    s.lineCount = (slice bytes s.start (s.stop - 1)).count newlineByte + 1 := by
  by_cases hlt : s.start < s.stop
  · have hrow := rowAt_eq_add bytes (Nat.le_sub_one_of_lt hlt)
    rw [lineCount, h.firstLine_eq, h.lastLine_eq, lastByte, if_pos hlt]
    omega
  · have hnone : slice bytes s.start (s.stop - 1) = [] := by
      apply List.eq_nil_of_length_eq_zero
      rw [length_slice]
      omega
    rw [h.lineCount_of_empty hlt, hnone, List.count_nil]

namespace LineMap

/-! ## Ranges without a span -/

/-- What refuses a range of offsets in a file of some length: the look-up of its end, or else that
of its start, or else the check of their order. -/
def rangeFault (length : Nat) (start stop : Int) : Option Fault :=
  if stop < 0 ∨ length < stop then some (.outOfBounds stop length)
  else if start < 0 ∨ length < start then some (.outOfBounds start length)
  else if stop < start then some (.invalidSpan (.bytes start stop))
  else none

/-- Nothing refuses a range in order within the file. -/
theorem rangeFault_eq_none_iff {length : Nat} {start stop : Int} :
    rangeFault length start stop = none ↔ 0 ≤ start ∧ start ≤ stop ∧ stop ≤ length := by
  simp only [rangeFault]
  split_ifs <;> simp only [false_iff, true_iff] <;> omega

theorem faultOf_line (m : LineMap) (offset : Int) :
    faultOf (m.line offset) = faultOf (m.check offset) := by
  rw [line, point, faultOf_map, faultOf_map]

/-- A range in order within the file has a span. -/
theorem exists_span_of_inside {bytes : List UInt8} {start stop : Int} (hstart : 0 ≤ start)
    (hle : start ≤ stop) (hstop : stop ≤ bytes.length) :
    ∃ s, (ofBytes bytes).span start stop = .ok s := by
  obtain ⟨i, rfl⟩ := Int.eq_ofNat_of_zero_le hstart
  obtain ⟨j, rfl⟩ := Int.eq_ofNat_of_zero_le (Int.le_trans hstart hle)
  exact exists_span_eq_ok (Int.ofNat_le.mp hle) (Int.ofNat_le.mp hstop)

/-- A range has no span for the first reason there is, in the order of the checks. -/
theorem faultOf_span (bytes : List UInt8) (start stop : Int) :
    faultOf ((ofBytes bytes).span start stop) = rangeFault bytes.length start stop := by
  have hstopFault := faultOf_check (ofBytes bytes) stop
  have hstartFault := (faultOf_line (ofBytes bytes) start).trans (faultOf_check _ start)
  unfold rangeFault
  split
  case isTrue hstop =>
    rw [span, faultOf_eq_some_iff.mp (hstopFault.trans (if_pos hstop))]
    rfl
  case isFalse hstop =>
    obtain ⟨k, hk⟩ := faultOf_eq_none_iff.mp (hstopFault.trans (if_neg hstop))
    split
    case isTrue hstart =>
      rw [span, hk, faultOf_eq_some_iff.mp (hstartFault.trans (if_pos hstart))]
      rfl
    case isFalse hstart =>
      obtain ⟨first, hfirst⟩ := faultOf_eq_none_iff.mp (hstartFault.trans (if_neg hstart))
      split
      case isTrue hreversed =>
        -- The line of the last byte is that of the start, which has been found already.
        have hlast : ¬ start < stop := by omega
        have hbytes : ¬ (0 ≤ start ∧ start ≤ stop) := by omega
        rw [span, hk, if_neg hlast, hfirst]
        simp only [bind, Except.bind, Span.ofInts, dif_neg hbytes, Except.mapError, faultOf]
      case isFalse hordered =>
        exact faultOf_eq_none_iff.mpr
          (exists_span_of_inside (by omega) (Int.not_lt.mp hordered) (by omega))

/-! ## What spans tell -/

/-- **A range of offsets has no span** exactly if its start and its end do not lie in the file in
this order, and it is refused for the first of the reasons.  Otherwise the span has the range, and
it has one line more than newline bytes before its last byte.  The lines of a span that is not empty
are lines of every span that contains it. -/
theorem span_tells (bytes : List UInt8) :
    (∀ start stop : Int,
      ((∃ fault, (ofBytes bytes).span start stop = .error fault) ↔
        ¬ (0 ≤ start ∧ start ≤ stop ∧ stop ≤ bytes.length)) ∧
      faultOf ((ofBytes bytes).span start stop) = rangeFault bytes.length start stop ∧
      ∀ s, (ofBytes bytes).span start stop = .ok s →
        start = s.start ∧ stop = s.stop ∧
        s.lineCount = (slice bytes s.start (s.stop - 1)).count newlineByte + 1 ∧
        (start = stop → s.lineCount = 1)) ∧
    ∀ (start stop start' stop' : Int) (outer inner : Span),
      (ofBytes bytes).span start stop = .ok outer →
      (ofBytes bytes).span start' stop' = .ok inner →
      start < stop → start' < stop' → outer.contains inner = true →
        outer.firstLine ≤ inner.firstLine ∧ inner.lastLine ≤ outer.lastLine := by
  constructor
  · intro start stop
    have hfault := faultOf_span bytes start stop
    refine ⟨?_, hfault, ?_⟩
    · rw [exists_eq_error_iff, ← faultOf_eq_none_iff, hfault, rangeFault_eq_none_iff]
    · intro s hs
      obtain ⟨hstart, hstop, hlines⟩ := span_eq_ok hs
      refine ⟨hstart, hstop, hlines.lineCount_eq, ?_⟩
      intro hempty
      exact hlines.lineCount_of_empty (by omega)
  · intro start stop start' stop' outer inner houter hinner _ hbytes hcontains
    obtain ⟨-, -, ho⟩ := span_eq_ok houter
    obtain ⟨hstart, hstop, hi⟩ := span_eq_ok hinner
    exact ho.lines_inside hi hcontains (by omega)

/-- Two lines, each with its newline byte. -/
def closedLines : List UInt8 := [0x61, newlineByte, 0x62, newlineByte]

/-- The whole file has two lines, since nothing follows its last newline byte; its second line lies
within them.  A range that ends before it starts is refused. -/
theorem span_tells_sample :
    ∃ whole second,
      (ofBytes closedLines).span 0 4 = .ok whole ∧ (ofBytes closedLines).span 2 4 = .ok second ∧
      whole.lineCount = 2 ∧ second.lineCount = 1 ∧ whole.contains second = true ∧
      whole.firstLine ≤ second.firstLine ∧ second.lastLine ≤ whole.lastLine ∧
      (ofBytes closedLines).span 3 2 = .error (.invalidSpan (.bytes 3 2)) := by
  obtain ⟨htells, hinside⟩ := span_tells closedLines
  obtain ⟨whole, hwhole⟩ : ∃ s, (ofBytes closedLines).span 0 4 = .ok s :=
    faultOf_eq_none_iff.mp ((htells 0 4).2.1.trans (by decide))
  obtain ⟨second, hsecond⟩ : ∃ s, (ofBytes closedLines).span 2 4 = .ok s :=
    faultOf_eq_none_iff.mp ((htells 2 4).2.1.trans (by decide))
  obtain ⟨hwstart, hwstop, hwlines, -⟩ := (htells 0 4).2.2 whole hwhole
  obtain ⟨hsstart, hsstop, hslines, -⟩ := (htells 2 4).2.2 second hsecond
  have hcontains : whole.contains second = true := by
    simp only [Span.contains, Bool.and_eq_true, decide_eq_true_eq]
    omega
  obtain ⟨hfirst, hlast⟩ :=
    hinside 0 4 2 4 whole second hwhole hsecond (by decide) (by decide) hcontains
  have hws : whole.start = 0 := by omega
  have hwe : whole.stop = 4 := by omega
  have hss : second.start = 2 := by omega
  have hse : second.stop = 4 := by omega
  rw [hws, hwe] at hwlines
  rw [hss, hse] at hslines
  exact ⟨whole, second, hwhole, hsecond, hwlines, hslines, hcontains, hfirst, hlast,
    faultOf_eq_some_iff.mp ((htells 3 2).2.1.trans (by decide))⟩

end LineMap

end CodeChallenges

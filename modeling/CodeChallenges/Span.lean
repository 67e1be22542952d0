/-!
Spans: a half-open byte range of a file together with the one-based lines that it touches.  The
bounds that make a span meaningful are part of the type; `Span.ofInts` is the checked way in.
-/

namespace CodeChallenges

/-- Bytes `start` up to but not including `stop`, on lines `firstLine` to `lastLine`. -/
structure Span where
  start : Nat
  stop : Nat
  firstLine : Nat
  lastLine : Nat
  start_le_stop : start ≤ stop
  firstLine_pos : 1 ≤ firstLine
  firstLine_le_lastLine : firstLine ≤ lastLine
  deriving DecidableEq

namespace Span

/-- Why four numbers are no span. -/
inductive Fault where
  | bytes (start stop : Int)
  | lines (first last : Int)
  deriving DecidableEq

/-- The message for a fault. -/
def Fault.message : Fault → String
  | .bytes start stop => s!"invalid span [{start}, {stop})"
  | .lines first last => s!"invalid line range {first}-{last}"

/-- Checks four numbers, the byte range before the lines. -/
def ofInts (start stop first last : Int) : Except Fault Span :=
  if _hs : 0 ≤ start ∧ start ≤ stop then
    if _hl : 1 ≤ first ∧ first ≤ last then
      .ok {
        start := start.toNat, stop := stop.toNat, firstLine := first.toNat, lastLine := last.toNat
        start_le_stop := by omega
        firstLine_pos := by omega
        firstLine_le_lastLine := by omega }
    else .error (.lines first last)
  else .error (.bytes start stop)

/-- How many lines the span touches. -/
def lineCount (s : Span) : Nat :=
  s.lastLine - s.firstLine + 1

/-- The byte range, which decides whether two spans are the same place. -/
def range (s : Span) : Nat × Nat :=
  (s.start, s.stop)

/-- Whether the bytes of `t` lie within those of `s`. -/
def contains (s t : Span) : Bool :=
  s.start ≤ t.start && t.stop ≤ s.stop

/-- Whether `s` contains `t` and is larger. -/
def strictlyContains (s t : Span) : Bool :=
  s.contains t && s.range != t.range

/-- Order by start, then by end. -/
def le (s t : Span) : Bool :=
  s.start < t.start || (s.start == t.start && s.stop ≤ t.stop)

/-- The spans in order of start, then end; spans of one range keep their order. -/
def sorted (spans : List Span) : List Span :=
  spans.mergeSort le

end Span

/-- The bytes of a source within a range; what lies beyond the end is not there. -/
def slice (source : List UInt8) (start stop : Nat) : List UInt8 :=
  (source.take stop).drop start

end CodeChallenges

import CodeChallenges.Span
/-!
From byte offsets to lines.  The map of a file holds the positions of its newline bytes; a look-up
is a binary search.  A newline byte belongs to the line that it ends.
-/

namespace CodeChallenges

/-- The newline byte. -/
def newlineByte : UInt8 := 0x0a

/-- The positions of the newline bytes in bytes that start at position `pos`. -/
def newlinesFrom (pos : Nat) : List UInt8 → List Nat
  | [] => []
  | b :: rest => if b == newlineByte then pos :: newlinesFrom (pos + 1) rest
    else newlinesFrom (pos + 1) rest

/-- The length of a file and the ascending positions of its newline bytes. -/
structure LineMap where
  length : Nat
  newlines : Array Nat

namespace LineMap

/-- The map of a file. -/
def ofBytes (bytes : List UInt8) : LineMap :=
  ⟨bytes.length, (newlinesFrom 0 bytes).toArray⟩

/-- A zero-based row and column. -/
structure Point where
  row : Nat
  column : Nat
  deriving DecidableEq

/-- Why an offset or a range of offsets has no place in the file. -/
inductive Fault where
  | outOfBounds (offset : Int) (length : Nat)
  | beyondEnd
  | beyondIndex
  | invalidSpan (fault : Span.Fault)
  deriving DecidableEq

/-- The message for a fault. -/
def Fault.message : Fault → String
  | .outOfBounds offset length => s!"Offset {offset} out of bounds (0-{length})"
  | .beyondEnd => "index out of range"
  | .beyondIndex => "cannot fit 'int' into an index-sized integer"
  | .invalidSpan fault => fault.message

/-- The first index from `lo` on, before `hi`, whose position is not below the offset. -/
def search (newlines : Array Nat) (offset lo hi : Nat) : Nat :=
  if lo < hi then
    let mid := (lo + hi) / 2
    if newlines.getD mid 0 < offset then search newlines offset (mid + 1) hi
    else search newlines offset lo mid
  else lo
  termination_by hi - lo

/-- The row of an offset: how many newline bytes lie before it. -/
def rowOf (m : LineMap) (offset : Nat) : Nat :=
  search m.newlines offset 0 m.newlines.size

/-- The row and column of an offset within the file. -/
def pointOf (m : LineMap) (offset : Nat) : Point :=
  match m.rowOf offset with
  | 0 => ⟨0, offset⟩
  | row + 1 => ⟨row + 1, offset - m.newlines.getD row 0 - 1⟩

/-- The offset as a position in the file, the end included. -/
def check (m : LineMap) (offset : Int) : Except Fault Nat :=
  if 0 ≤ offset ∧ offset ≤ m.length then .ok offset.toNat
  else .error (.outOfBounds offset m.length)

/-- The row and column of an offset. -/
def point (m : LineMap) (offset : Int) : Except Fault Point :=
  (m.check offset).map m.pointOf

/-- The one-based line that holds an offset. -/
def line (m : LineMap) (offset : Int) : Except Fault Nat :=
  (m.point offset).map (·.row + 1)

/-- The span from one offset to another; its last line is that of the last byte inside it. -/
def span (m : LineMap) (start stop : Int) : Except Fault Span := do
  let _ ← m.check stop
  let first ← m.line start
  let last ← m.line (if start < stop then stop - 1 else start)
  (Span.ofInts start stop first last).mapError .invalidSpan

end LineMap

/-- Spaces and tabs indent a line. -/
def isIndentByte (b : UInt8) : Bool :=
  b == 0x20 || b == 0x09

/-- The start of the line that holds `start` when only indentation lies between the two, and
`start` itself otherwise. -/
def lineStart (source : List UInt8) (start : Nat) : Nat :=
  let before := (source.take start).reverse
  match before.dropWhile isIndentByte with
  | [] => 0
  | b :: rest => if b == newlineByte then rest.length + 1 else start

/-- One more than the greatest index: positions are signed words of 64 bits. -/
def indexBound : Int := 0x8000000000000000

/-- The start of the line of any offset.  Nothing can be said beyond the end; an offset below zero
counts from the end and stays as it is, as long as a byte lies before it.  The byte before the
offset is asked for by its index, and an integer that is no index is refused as such. -/
def lineStart? (source : List UInt8) (start : Int) : Except LineMap.Fault Int :=
  let length : Int := source.length
  if length < start || start ≤ -length && start < 0 then
    .error (if start - 1 < -indexBound || indexBound ≤ start - 1 then .beyondIndex else .beyondEnd)
  else if start < 0 then .ok start
  else .ok (lineStart source start.toNat)

end CodeChallenges

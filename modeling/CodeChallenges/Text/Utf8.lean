import CodeChallenges.Text.Hex
/-!
Reading bytes as UTF-8.  `front` looks at the front of a byte sequence and finds either one
well-formed character or the longest ill-formed piece that no character could begin with, together
with the reason.  Strict reading stops at the first such piece; lenient reading puts one
replacement character in the place of each.
-/

namespace CodeChallenges.Text.Utf8

/-- Why no character can be read. -/
inductive Fault where
  | badStart
  | badContinuation
  | truncated
  deriving DecidableEq, Repr

/-- The words for a fault. -/
def Fault.reason : Fault → String
  | .badStart => "invalid start byte"
  | .badContinuation => "invalid continuation byte"
  | .truncated => "unexpected end of data"

/-- The number of bytes that a first byte announces. -/
def announced? (lead : UInt8) : Option Nat :=
  if lead < 0x80 then some 1
  else if lead < 0xc2 then none
  else if lead < 0xe0 then some 2
  else if lead < 0xf0 then some 3
  else if lead < 0xf5 then some 4
  else none

/-- The least and the greatest second byte after a first byte: the shortest form is the only one,
surrogates are no characters, and nothing lies beyond the last plane. -/
def secondBounds (lead : UInt8) : UInt8 × UInt8 :=
  if lead == 0xe0 then (0xa0, 0xbf)
  else if lead == 0xed then (0x80, 0x9f)
  else if lead == 0xf0 then (0x90, 0xbf)
  else if lead == 0xf4 then (0x80, 0x8f)
  else (0x80, 0xbf)

/-- The payload of a first byte of a sequence of `width` bytes. -/
def leadPayload (width : Nat) (lead : UInt8) : Nat :=
  match width with
  | 1 => lead.toNat
  | 2 => lead.toNat % 0x20
  | 3 => lead.toNat % 0x10
  | _ => lead.toNat % 0x08

/-- Reads the continuation bytes of one character: `need` of them are missing, the next lies within
`bounds`, `seen` bytes of the character have been read and `code` is their payload. -/
def continuation (bounds : UInt8 × UInt8) (seen code : Nat) :
    (need : Nat) → List UInt8 → Except (Nat × Fault) (Nat × List UInt8)
  | 0, rest => .ok (code, rest)
  | _ + 1, [] => .error (seen, .truncated)
  | need + 1, b :: rest =>
    if bounds.1 ≤ b && b ≤ bounds.2 then
      continuation (0x80, 0xbf) (seen + 1) (code * 0x40 + b.toNat % 0x40) need rest
    else .error (seen, .badContinuation)

theorem continuation_length {bounds : UInt8 × UInt8} {seen code need : Nat} {bytes : List UInt8}
    {result : Nat × List UInt8} (h : continuation bounds seen code need bytes = .ok result) :
    result.2.length ≤ bytes.length := by
  induction need generalizing bounds seen code bytes with
  | zero => simp [continuation] at h; simp [← h]
  | succ need ih =>
    cases bytes with
    | nil => simp [continuation] at h
    | cons b rest =>
      simp only [continuation] at h
      split at h
      · exact Nat.le_succ_of_le (ih h)
      · simp at h

/-- What the front of a byte sequence with first byte `lead` holds: the code of a character and the
bytes after it, or the width of an ill-formed piece and its fault. -/
def front (lead : UInt8) (rest : List UInt8) : Except (Nat × Fault) (Nat × List UInt8) :=
  match announced? lead with
  | none => .error (1, .badStart)
  | some width => continuation (secondBounds lead) 1 (leadPayload width lead) (width - 1) rest

theorem front_length {lead : UInt8} {rest : List UInt8} {result : Nat × List UInt8}
    (h : front lead rest = .ok result) : result.2.length ≤ rest.length := by
  unfold front at h
  split at h
  · simp at h
  · exact continuation_length h

/-- Where strict reading failed: bytes `start` up to but not including `stop`. -/
structure DecodeError where
  start : Nat
  stop : Nat
  firstByte : UInt8
  fault : Fault
  deriving DecidableEq, Repr

/-- Strict reading of the end of `size` bytes, after the reversed characters `done`. -/
def decodeFrom (size : Nat) (done : List Char) : List UInt8 → Except DecodeError (List Char)
  | [] => .ok done.reverse
  | lead :: rest =>
    match _h : front lead rest with
    | .ok (code, tail) => decodeFrom size (Char.ofNat code :: done) tail
    | .error (width, fault) =>
      let start := size - (rest.length + 1)
      .error ⟨start, start + width, lead, fault⟩
  termination_by bytes => bytes.length
  decreasing_by exact Nat.lt_succ_of_le (front_length _h)

/-- The characters of a well-formed byte sequence, or the first place where it is ill-formed. -/
def decode (bytes : List UInt8) : Except DecodeError (List Char) :=
  decodeFrom bytes.length [] bytes

/-- Whether the bytes are well-formed. -/
def isValid (bytes : List UInt8) : Bool :=
  match decode bytes with
  | .ok _ => true
  | .error _ => false

/-- Lenient reading after the reversed characters `done`. -/
def decodeLossyFrom (done : List Char) : List UInt8 → List Char
  | [] => done.reverse
  | lead :: rest =>
    match _h : front lead rest with
    | .ok (code, tail) => decodeLossyFrom (Char.ofNat code :: done) tail
    | .error (width, _) => decodeLossyFrom (Char.ofNat 0xfffd :: done) (rest.drop (width - 1))
  termination_by bytes => bytes.length
  decreasing_by
    · exact Nat.lt_succ_of_le (front_length _h)
    · simp only [List.length_drop, List.length_cons]; omega

/-- The characters of any byte sequence, with one replacement character for each ill-formed
piece. -/
def decodeLossy (bytes : List UInt8) : List Char :=
  decodeLossyFrom [] bytes

/-- The bytes of a text. -/
def encode (cs : List Char) : List UInt8 :=
  cs.flatMap String.utf8EncodeChar

/-- The message for a failed strict reading. -/
def DecodeError.message (e : DecodeError) : String :=
  let hex := String.ofList (hexDigits 2 e.firstByte.toNat)
  let place :=
    if e.stop == e.start + 1 then s!"byte 0x{hex} in position {e.start}"
    else s!"bytes in position {e.start}-{e.stop - 1}"
  s!"'utf-8' codec can't decode {place}: {e.fault.reason}"

end CodeChallenges.Text.Utf8

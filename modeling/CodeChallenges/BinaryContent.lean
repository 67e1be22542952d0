import CodeChallenges.Repository.Git
import CodeChallenges.Text.LetterCase
import CodeChallenges.Text.Utf8
/-!
Telling binary files from text.  An answer of git decides; without one the first bytes do: a null
byte makes a file binary, well-formed UTF-8 is text even when the sample ends inside a character,
and anything else is binary when more than three bytes in ten are not printable.
-/

namespace CodeChallenges.BinaryContent

/-- How many bytes of a file are looked at. -/
def sampleSize : Nat := 8192

/-- Printable ASCII and the usual control characters of texts. -/
def isTextByte (b : UInt8) : Bool :=
  b == 0x08 || b == 0x09 || b == 0x0a || b == 0x0c || b == 0x0d || (0x20 ≤ b && b ≤ 0x7e)

/-- Whether strict reading failed only because the bytes end inside a character. -/
def isCutCharacter (size : Nat) (e : Text.Utf8.DecodeError) : Bool :=
  e.fault == .truncated && size ≤ e.start + 3

/-- More than three bytes in ten are not printable. -/
def mostlyUnprintable (sample : List UInt8) : Bool :=
  3 * sample.length < 10 * sample.countP (!isTextByte ·)

/-- Whether a sample looks like binary data. -/
def looksBinary (sample : List UInt8) : Bool :=
  if sample.contains 0 then true
  else match Text.Utf8.decode sample with
    | .ok _ => false
    | .error e => !isCutCharacter sample.length e && mostlyUnprintable sample

/-- What the answer of git about one file says, if anything; the value stands after the last
colon. -/
def attributeSays (answer : String) : Option Bool :=
  let value := ((Text.splitOnChar ':' answer.toList).getLast?).getD []
  match String.ofList (Text.lower (Text.trim value)) with
  | "set" => some true
  | "unset" => some false
  | "false" => some false
  | _ => none

/-- What git says about a file, if it was asked and gave an answer that settles it. -/
def verdictOf (answer : Option (Except Git.Failure String)) : Except Git.Failure (Option Bool) :=
  match answer with
  | none => .ok none
  | some (.ok text) => .ok (attributeSays text)
  | some (.error failure) => if failure.isHarmless then .ok none else .error failure

/-- Whether a file is binary, given what git said of it, if it was asked, and the bytes of the
file, if it can be read. -/
def isBinary (answer : Option (Except Git.Failure String)) (content : Option (List UInt8)) :
    Except Git.Failure Bool :=
  (verdictOf answer).map fun verdict =>
    verdict.getD (content.any fun bytes => looksBinary (bytes.take sampleSize))

end CodeChallenges.BinaryContent

import CodeChallenges.BlankLines
import CodeChallenges.Challenge
import CodeChallenges.Chunk
import CodeChallenges.Options
/-!
Making a challenge of a chunk: its bytes are read as text, the comments inside it become character
ranges of that text, and blank lines are shrunk where the options say so.
-/

namespace CodeChallenges.Challenge

/-- The character range of a byte range of a text, given the bytes of the text. -/
def characterRange (raw : List UInt8) (start stop : Nat) :
    Except Text.Utf8.DecodeError (Nat × Nat) := do
  let before ← Text.Utf8.decode (raw.take start)
  let inside ← Text.Utf8.decode (slice raw start stop)
  return (before.length, before.length + inside.length)

/-- Order of ranges by start, then by end. -/
def rangeLe (a b : Nat × Nat) : Bool :=
  a.1 < b.1 || (a.1 == b.1 && a.2 ≤ b.2)

/-- The character ranges of the comments inside a chunk, in order. -/
def commentRangesOf (chunk : Chunk) (comments : List Span) (raw : List UInt8) :
    Except Text.Utf8.DecodeError (List (Nat × Nat)) := do
  let inside := comments.filter chunk.span.contains
  let ranges ← inside.mapM fun c =>
    characterRange raw (c.start - chunk.span.start) (c.stop - chunk.span.start)
  return ranges.mergeSort rangeLe

/-- Ranges of an old text as ranges of its collapsed form. -/
def moveRanges (mapping : List Nat) (ranges : List (Nat × Nat)) : List (Nat × Nat) :=
  ranges.map fun r => (mapping.getD r.1 0, mapping.getD r.2 0)

/-- The text of a challenge and its comment ranges after the wishes for blank lines. -/
def arrange (o : Options) (content : List Char) (ranges : List (Nat × Nat)) :
    List Char × List (Nat × Nat) :=
  if o.preserveEmptyLines then (content, ranges)
  else
    let collapsed := BlankLines.collapse content o.maxBlankRun
    (collapsed.text, moveRanges collapsed.mapping ranges)

/-- The challenge of a chunk of a source; its bytes and comments have to begin and end between
characters. -/
def ofChunk (chunk : Chunk) (comments : List Span) (o : Options) (source : List UInt8) :
    Except Text.Utf8.DecodeError Challenge := do
  let raw := slice source chunk.span.start chunk.span.stop
  let content ← Text.Utf8.decode raw
  let ranges ← commentRangesOf chunk comments raw
  let (text, ranges) := arrange o content ranges
  return {
    id := makeId chunk.path chunk.span.start chunk.span.stop chunk.chunkType
    content := String.ofList text
    chunkType := chunk.chunkType
    language := chunk.language
    filePath := chunk.path
    startLine := chunk.span.firstLine
    endLine := chunk.span.lastLine
    startByte := chunk.span.start
    endByte := chunk.span.stop
    name := chunk.name
    commentRanges := ranges.map fun r => ((r.1 : Int), (r.2 : Int)) }

end CodeChallenges.Challenge

import CodeChallenges.ChunkType
import CodeChallenges.Json
import CodeChallenges.Path
import CodeChallenges.Sha256
import CodeChallenges.Text.Utf8
/-!
Challenges: pieces of source text to be typed, with where they come from.  The identity of a
challenge is the digest of a key text made of its path, byte range and kind; a list of challenges
is written as one JSON record a line.
-/

namespace CodeChallenges

/-- A piece of source text with its place in the file and the character ranges of its comments. -/
structure Challenge where
  id : String
  content : String
  chunkType : ChunkType
  language : String
  filePath : String
  startLine : Int
  endLine : Int
  startByte : Int
  endByte : Int
  name : Option String
  commentRanges : List (Int × Int)

namespace Challenge

/-- The text whose digest is the identity of a challenge. -/
def idText (path : String) (start stop : Int) (chunkType : ChunkType) : String :=
  s!"{path}::{start}::{stop}::{chunkType.tag}"

/-- The identity of a challenge. -/
def makeId (path : String) (start stop : Int) (chunkType : ChunkType) : String :=
  Sha256.hexDigest (Text.Utf8.encode (idText path start stop chunkType).toList)

/-- The file with its directory, and the lines, for compact display. -/
def title (c : Challenge) : String :=
  let name := Path.name c.filePath
  let parent := Path.parentName c.filePath
  let place := if parent == "" then name else s!"{parent}/{name}"
  s!"{place}:{c.startLine}-{c.endLine}"

/-- A challenge as a record. -/
def toJson (c : Challenge) : Json :=
  .obj [
    ("id", .str c.id),
    ("content", .str c.content),
    ("chunk_type", .str c.chunkType.tag),
    ("language", .str c.language),
    ("file_path", .str c.filePath),
    ("start_line", .int c.startLine),
    ("end_line", .int c.endLine),
    ("start_byte", .int c.startByte),
    ("end_byte", .int c.endByte),
    ("name", .ofOption c.name),
    ("comment_ranges", .arr (c.commentRanges.map fun r => .arr [.int r.1, .int r.2]))]

/-- One record a line, each line ended. -/
def ndjson (challenges : List Challenge) : String :=
  String.ofList (challenges.flatMap fun c => c.toJson.render ++ ['\n'])

end Challenge

end CodeChallenges

import CodeChallenges.ChunkType
import CodeChallenges.Span
/-!
Chunks: pieces of one file that may become challenges.
-/

namespace CodeChallenges

/-- A piece of a file, of some kind, perhaps with a name. -/
structure Chunk where
  span : Span
  chunkType : ChunkType
  path : String
  language : String
  name : Option String
  deriving DecidableEq

namespace Chunk

/-- Order by start, then longer before shorter, then by rank. -/
def le (rank : Chunk → Nat) (a b : Chunk) : Bool :=
  a.span.start < b.span.start ||
    (a.span.start == b.span.start &&
      (b.span.stop < a.span.stop || (a.span.stop == b.span.stop && rank a ≤ rank b)))

/-- Order by path, then as `le`. -/
def lePath (rank : Chunk → Nat) (a b : Chunk) : Bool :=
  decide (a.path < b.path) || (a.path == b.path && le rank a b)

end Chunk

end CodeChallenges

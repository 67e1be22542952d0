import CodeChallenges.Chunk
import CodeChallenges.Log
import CodeChallenges.Registry
import CodeChallenges.Text.Utf8
/-!
From candidate chunks to the chunks that are kept.  A candidate is dropped when it is too short or
holds nothing but comments and imports; of the candidates of one place the one of lowest rank
stays, the earliest among equals.
-/

namespace CodeChallenges.Selection

/-- The fewest characters of a kept chunk, blanks at its ends not counted. -/
def minChars : Nat := 10

/-- Why a candidate is dropped. -/
inductive DropReason where
  | tooFewLines
  | tooShort
  | commentOnly
  | importOnly
  deriving DecidableEq

/-- The word for a reason. -/
def DropReason.tag : DropReason → String
  | .tooFewLines => "too_few_lines"
  | .tooShort => "too_short"
  | .commentOnly => "comment_only"
  | .importOnly => "import_only"

/-- Whether the bytes from `pos` to `stop` outside the given spans are blank; the spans are taken
in their order, and `pos` moves past each. -/
def blankOutsideFrom (source : List UInt8) (stop pos : Nat) : List Span → Bool
  | [] => (slice source pos stop).all Text.isBlankByte
  | s :: spans =>
    if s.stop ≤ pos || stop ≤ s.start then blankOutsideFrom source stop pos spans
    else (slice source pos (max pos s.start)).all Text.isBlankByte &&
      blankOutsideFrom source stop (max pos s.stop) spans

/-- Whether every byte of a span outside the given spans is blank. -/
def blankOutside (source : List UInt8) (span : Span) (spans : List Span) : Bool :=
  blankOutsideFrom source span.stop span.start spans

/-- The fewest lines of a kept chunk of a language. -/
def minLinesIn (language : Option Language) : Int :=
  match language with
  | some l => l.minLines
  | none => defaultMinLines

/-- Why a chunk is dropped, if it is.  `masked` holds the comments and imports together, in order
of start. -/
def dropReason (chunk : Chunk) (source : List UInt8) (comments masked : List Span)
    (language : Option Language) : Option DropReason :=
  let text := Text.Utf8.decodeLossy (slice source chunk.span.start chunk.span.stop)
  if (chunk.span.lineCount : Int) < minLinesIn language then some .tooFewLines
  else if (Text.trim text).length < minChars then some .tooShort
  else if blankOutside source chunk.span comments then some .commentOnly
  else if blankOutside source chunk.span masked then some .importOnly
  else none

/-- The rank of a chunk among the kinds of a language; without a language all rank alike. -/
def rankIn (language : Option Language) (chunk : Chunk) : Nat :=
  match language with
  | some l => l.rank chunk.chunkType
  | none => 0

/-- The rank of a chunk in its own language. -/
def rank (r : Registry) (chunk : Chunk) : Nat :=
  rankIn (r.byName chunk.language) chunk

/-- Whether two chunks claim the same place. -/
def samePlace (a b : Chunk) : Bool :=
  a.path == b.path && a.span.range == b.span.range

/-- Whether a newcomer takes the place of a chunk: both are ranked in the newcomer's language. -/
def supersedes (r : Registry) (chunk best : Chunk) : Bool :=
  rankIn (r.byName chunk.language) chunk < rankIn (r.byName chunk.language) best

/-- Adds a chunk to the best chunks so far: at a new place it goes to the end, at a known place it
replaces a chunk that it supersedes. -/
def addBest (r : Registry) (chunk : Chunk) : List Chunk → List Chunk
  | [] => [chunk]
  | best :: rest =>
    if samePlace best chunk then (if supersedes r chunk best then chunk else best) :: rest
    else best :: addBest r chunk rest

/-- Candidates, each with the reason why it is dropped, if it is. -/
def judged (r : Registry) (source : List UInt8) (comments imports : List Span)
    (candidates : List Chunk) : List (Chunk × Option DropReason) :=
  let commentSpans := Span.sorted comments
  let masked := Span.sorted (commentSpans ++ imports)
  candidates.map fun c => (c, dropReason c source commentSpans masked (r.byName c.language))

/-- The best chunks of judged candidates, ordered by path, then start, then longer before
shorter. -/
def bestOf (r : Registry) (candidates : List (Chunk × Option DropReason)) : List Chunk :=
  let kept := (candidates.filter (·.2.isNone)).map (·.1)
  let best := kept.foldl (fun best c => addBest r c best) []
  best.mergeSort (Chunk.lePath (rank r))

/-- The kept chunks of a list of candidates, ordered by path, then start, then longer before
shorter. -/
def resolve (r : Registry) (source : List UInt8) (comments imports : List Span)
    (candidates : List Chunk) : List Chunk :=
  bestOf r (judged r source comments imports candidates)

/-- The message about a candidate that is dropped. -/
def dropMessage (c : Chunk) (reason : DropReason) : Log.Message :=
  let lines := s!"{c.span.firstLine}-{c.span.lastLine}"
  ⟨.debug, .selection, s!"Dropping {c.chunkType.tag} {c.path}:{lines} ({reason.tag})"⟩

/-- The messages about the dropped ones of judged candidates. -/
def dropMessages (candidates : List (Chunk × Option DropReason)) : List Log.Message :=
  candidates.filterMap fun (c, reason) => reason.map (dropMessage c)

end CodeChallenges.Selection

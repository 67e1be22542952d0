import CodeChallenges.BinaryContent
import CodeChallenges.Challenge.OfChunk
import CodeChallenges.Grammar
import CodeChallenges.Repository.Scan
import CodeChallenges.Selection
import CodeChallenges.Tree.Extent
/-!
The challenges of one file.  A file that is too large, cannot be read, is binary, is no text or
cannot be parsed is skipped with the reason; of every other file the candidates are collected,
selected, and made into challenges.  What is noticed on the way is told in messages.
-/

namespace CodeChallenges.Extraction

open Repository

/-- What is needed to parse: the grammars at hand, and the tree of a content in a language. -/
structure Toolkit where
  grammars : Grammars
  parse : Language → List UInt8 → Tree.Node

/-- Why a file gives no challenges. -/
inductive SkipReason where
  | unreadable
  | binary
  | tooLarge
  | unparseable
  | failed
  deriving DecidableEq

/-- The word for a reason. -/
def SkipReason.tag : SkipReason → String
  | .unreadable => "unreadable"
  | .binary => "binary"
  | .tooLarge => "too_large"
  | .unparseable => "unparseable"
  | .failed => "failed"

/-- What one file gives. -/
inductive Yield where
  | skipped (reason : SkipReason)
  | challenges (candidates : Nat) (made : List Challenge)

/-- What one file gives, how many of its candidates give no challenge, and what there is to say
about it. -/
structure Processed where
  yield : Yield
  dropped : Int := 0
  messages : List Log.Message := []

/-- A file that is skipped without a word. -/
def Processed.skip (reason : SkipReason) : Processed :=
  { yield := .skipped reason }

/-- Why a file cannot be processed at all. -/
inductive Fault where
  | grammar (failure : Grammar.Failure)
  | git (failure : Git.Failure)
  | candidates (fault : Candidates.Fault)
  | text (error : Text.Utf8.DecodeError)
  | badPath (path : String) (fault : PathFault)

/-- The message for a fault. -/
def Fault.message : Fault → String
  | .grammar failure => failure.message
  | .git failure => failure.message
  | .candidates fault => fault.message
  | .text error => error.message
  | .badPath path fault => fault.message path

/-- The candidate chunks of a tree after its structural chunks: blocks, then the whole file, both
where the options ask for them and the whole file only if all of it could be parsed. -/
def furtherCandidates (s : Candidates.Setting) (queries : Queries) (o : Options)
    (root : Tree.Node) (structural : List Chunk) : Except Candidates.Fault (List Chunk) := do
  let blocks ← if o.includeBlocks then s.blocks queries root structural else .ok []
  let file ←
    if o.includeFileChunks && !root.label.hasError then (s.wholeFile).map ([·]) else .ok []
  return blocks ++ file

/-- A message about one file. -/
def note (text : String) : Log.Message :=
  ⟨.debug, .extraction, text⟩

/-- The challenges of candidates in a tree; a tree with errors and without candidates counts as
not parsed. -/
def challengesOf (r : Registry) (o : Options) (s : Candidates.Setting) (root : Tree.Node)
    (candidates : List Chunk) : Except Fault Processed :=
  if root.label.hasError && candidates.isEmpty then
    .ok {
      yield := .skipped .unparseable
      messages := [note s!"Syntax errors in {s.path} and no clean chunk, skipping"] }
  else do
    let comments := root.comments s.source s.language
    let imports := root.imports s.source s.language
    let judged := Selection.judged r s.source comments imports candidates
    let resolved := Selection.bestOf r judged
    let made ← (resolved.mapM (Challenge.ofChunk · comments o s.source)).mapError .text
    let counts := s!"{made.length} challenges from {candidates.length} candidates"
    return {
      yield := .challenges candidates.length made
      dropped := candidates.length - resolved.length
      messages := Selection.dropMessages judged ++ [note s!"{s.path}: {counts}"] }

/-- The challenges of a tree. -/
def processTree (r : Registry) (o : Options) (s : Candidates.Setting) (queries : Queries)
    (root : Tree.Node) : Except Fault Processed := do
  let found ← (Candidates.matchesOf queries.structural root).mapError .candidates
  let structural ← (s.structuralOf found).mapError .candidates
  let further ← (furtherCandidates s queries o root structural).mapError .candidates
  let processed ← challengesOf r o s root (structural ++ further)
  return { processed with
    messages := s.structuralMessages found structural ++ processed.messages }

/-- The challenges of the content of a file that is text. -/
def processText (t : Toolkit) (r : Registry) (o : Options) (l : Language) (path : String)
    (content : List UInt8) : Except Fault Processed := do
  let patterns ← (Grammar.prepare t.grammars l).mapError .grammar
  let s := Candidates.Setting.ofFile l path content
  processTree r o s (patterns.queries content) (t.parse l content)

/-- The challenges of a content of a file, about which git may have said something. -/
def processContent (t : Toolkit) (r : Registry) (o : Options) (l : Language) (path : String)
    (answer : Option (Except Git.Failure String)) (content : List UInt8) :
    Except Fault Processed := do
  if o.maxFileBytes < content.length then return .skip .tooLarge
  if ← (BinaryContent.isBinary answer (some content)).mapError .git then
    return .skip .binary
  if !Text.Utf8.isValid content then return .skip .unreadable
  processText t r o l path content

/-- What git says about a file, if it is asked. -/
def binaryAnswer (git : Option GitService) (path : String) : Option (Except Git.Failure String) :=
  git.map fun g => Git.output (Git.checkBinaryArgs path) (g.binaryMark path)

/-- The challenges of a file below a root.  `git` is there if git is to be asked. -/
def processFile (t : Toolkit) (r : Registry) (o : Options) (s : Snapshot) (root : Place)
    (git : Option GitService) (path : String) (l : Language) : Except Fault Processed :=
  match s.locate root path with
  | .error .nullCharacter => .error (.badPath path .nullCharacter)
  | .error _ => .ok (.skip .unreadable)
  | .ok place =>
    match s.entryAt place with
    | some (.file content) => processContent t r o l path (binaryAnswer git path) content
    | _ =>
      .ok (.skip (if o.maxFileBytes < Snapshot.directorySize then .tooLarge else .unreadable))

/-- Whether the file at a path below a root is binary; one that cannot be read is not.  A path that
cannot even be looked up matters only if git leaves the question open. -/
def isBinaryFile (s : Snapshot) (root : Place) (answer : Option (Except Git.Failure String))
    (path : String) : Except Fault Bool := do
  match ← (BinaryContent.verdictOf answer).mapError .git, s.locate root path with
  | none, .error .nullCharacter => throw (.badPath path .nullCharacter)
  | _, _ => (BinaryContent.isBinary answer (s.read? root path)).mapError .git

/-- Whether the processing of a file comes to the question whether it is binary. -/
def asksGit (o : Options) (s : Snapshot) (root : Place) (path : String) : Bool :=
  match s.read? root path with
  | none => false
  | some content => (content.length : Int) ≤ o.maxFileBytes

end CodeChallenges.Extraction

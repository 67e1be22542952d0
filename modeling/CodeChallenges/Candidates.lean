import CodeChallenges.Chunk
import CodeChallenges.Language
import CodeChallenges.LineMap
import CodeChallenges.Log
import CodeChallenges.Path
import CodeChallenges.Tree.Pattern
import CodeChallenges.Text.Blank
/-!
Candidate chunks of one file.  Structural chunks come from the matches of the structural queries
of a language, blocks from its block queries inside structural chunks, and the whole file can be a
chunk too.  A chunk starts at its node, or at the start of the line when only indentation precedes
the node, and ends with the node; nodes that could not be parsed give none and are counted.  Of
several finds at one place the one of lowest rank stays and takes a name from the others if it has
none.
-/

namespace CodeChallenges

open CodeChallenges.Tree

/-- The queries of a language over one source. -/
structure Queries where
  structural : List Query
  blocks : List Query

namespace Candidates

/-- Why the candidates of a file cannot be told. -/
inductive Fault where
  | place (fault : LineMap.Fault)
  | text (error : Text.Utf8.DecodeError)
  deriving DecidableEq

/-- The message for a fault. -/
def Fault.message : Fault → String
  | .place fault => fault.message
  | .text error => error.message

/-- The matches of queries in a tree, query by query. -/
def matchesOf (queries : List Query) (root : Node) : Except Fault (List (List Capture)) := do
  let found ← queries.mapM fun (query : Query) => (query root).mapError .text
  return found.flatten

/-- The capture that names a declaration. -/
def nameCapture : String := "name"

/-- The fewest lines of a block. -/
def blockMinLines : Nat := 2

/-- The fewest characters of a block. -/
def blockMinChars : Nat := 30

/-- The most characters of a block. -/
def blockMaxChars : Nat := 2000

/-- How far into a node a name is looked for. -/
def headSize : Nat := 512

/-- Characters that begin a name. -/
def isNameStart (c : Char) : Bool :=
  c.isAlpha || c == '_'

/-- Characters of a name, qualified or generic. -/
def isNameChar (c : Char) : Bool :=
  c.isAlphanum || c == '_' || c == '.' || c == '$' || c == '<' || c == '>'

/-- The name at the front of a text that a parenthesis follows, blanks aside. -/
def calledName? : List Char → Option (List Char)
  | [] => none
  | c :: cs =>
    if isNameStart c then
      match (cs.dropWhile isNameChar).dropWhile Text.isBlank with
      | '(' :: _ => some (c :: cs.takeWhile isNameChar)
      | _ => none
    else none

/-- The first name in a text that a parenthesis follows. -/
def firstCalledName : List Char → Option (List Char)
  | [] => none
  | c :: cs => (calledName? (c :: cs)).orElse fun _ => firstCalledName cs

/-- Whether a text occurs in another. -/
def occursIn (part : List Char) : List Char → Bool
  | [] => part.isEmpty
  | c :: cs => part.isPrefixOf (c :: cs) || occursIn part cs

/-- Whether nodes of a kind are names by their kind alone. -/
def isNameKind (kind : String) : Bool :=
  occursIn "identifier".toList kind.toList || kind == nameCapture

/-- The text of a node as a string. -/
def nodeText (source : List UInt8) (n : Node) : String :=
  String.ofList (n.text source)

/-- The name that a declaration gives itself: its child in the role of a name, or the first named
child that is a name by its kind, or the first name in its head that a parenthesis follows. -/
def declaredName (source : List UInt8) (n : Node) : Option String :=
  match n.childByField nameCapture with
  | some child => some (nodeText source child)
  | none =>
    match n.namedChildren.find? (isNameKind ·.kind) with
    | some child => some (nodeText source child)
    | none =>
      let head := slice source n.start (min n.stop (n.start + headSize))
      (firstCalledName (Text.Utf8.decodeLossy head)).map String.ofList

/-- The span of a node, from its line start when only indentation precedes it. -/
def nodeSpan (source : List UInt8) (lines : LineMap) (n : Node) : Except Fault Span := do
  let start ← (lineStart? source n.start).mapError .place
  (lines.span start n.stop).mapError .place

/-- What is known while the chunks of one file are collected. -/
structure Setting where
  language : Language
  path : String
  source : List UInt8
  lines : LineMap

namespace Setting

/-- The setting of one file. -/
def ofFile (language : Language) (path : String) (source : List UInt8) : Setting :=
  ⟨language, path, source, LineMap.ofBytes source⟩

/-- A chunk of the file. -/
def chunk (s : Setting) (span : Span) (chunkType : ChunkType) (name : Option String) : Chunk :=
  ⟨span, chunkType, s.path, s.language.name, name⟩

/-- The rank of a chunk in the language of the file. -/
def rank (s : Setting) (c : Chunk) : Nat :=
  s.language.rank c.chunkType

/-- The nodes under names that stand for kinds of code, with the kind. -/
def taggedNodes (s : Setting) (groups : List (String × List Node)) : List (ChunkType × Node) :=
  groups.flatMap fun (name, nodes) =>
    match s.language.chunkTypeFor name with
    | none => []
    | some chunkType => nodes.map (chunkType, ·)

/-- The nodes under names that stand for kinds of code, with the kind; nodes that could not be
parsed are left out. -/
def typedNodes (s : Setting) (groups : List (String × List Node)) : List (ChunkType × Node) :=
  (s.taggedNodes groups).filter (!·.2.label.hasError)

/-- How many nodes of a match are left out since they could not be parsed. -/
def brokenCount (s : Setting) (captures : List Capture) : Nat :=
  (s.taggedNodes (groupCaptures captures)).countP (·.2.label.hasError)

/-- Of two chunks at one place, the later when its rank is lower, and else the earlier; a name is
kept if either has one. -/
def merge (s : Setting) (current later : Chunk) : Chunk :=
  let (best, other) :=
    if s.rank later < s.rank current then (later, current) else (current, later)
  { best with name := best.name.orElse fun _ => other.name }

/-- Adds a find to the chunks found so far, of which no two are at one place. -/
def add (s : Setting) (c : Chunk) : List Chunk → List Chunk
  | [] => [c]
  | found :: rest =>
    if found.span.range == c.span.range then s.merge found c :: rest else found :: s.add c rest

/-- Finds put together, one chunk for each place, ordered by start, longer before shorter. -/
def collect (s : Setting) (finds : List Chunk) : List Chunk :=
  (finds.foldl (fun found c => s.add c found) []).mergeSort (Chunk.le s.rank)

/-- The finds of one structural match. -/
def structuralFinds (s : Setting) (captures : List Capture) : Except Fault (List Chunk) :=
  let nameNode := captures.find? (·.name == nameCapture)
  (s.typedNodes (groupCaptures captures)).mapM fun (chunkType, n) => do
    let name := match nameNode with
      | some c => some (nodeText s.source c.node)
      | none => declaredName s.source n
    return s.chunk (← nodeSpan s.source s.lines n) chunkType name

/-- The chunks of structural matches. -/
def structuralOf (s : Setting) (found : List (List Capture)) : Except Fault (List Chunk) := do
  let finds ← found.mapM s.structuralFinds
  return s.collect finds.flatten

/-- The messages about the chunks of structural matches. -/
def structuralMessages (s : Setting) (found : List (List Capture)) (chunks : List Chunk) :
    List Log.Message :=
  let broken := (found.map s.brokenCount).foldl (· + ·) 0
  let say := Log.Message.mk .debug .candidates
  (if broken == 0 then [] else
    [say s!"{s.path}: skipped {broken} captures with syntax errors"]) ++
  [say s!"{s.path}: {chunks.length} structural candidates"]

/-- The structural chunks of a file. -/
def structural (s : Setting) (queries : Queries) (root : Node) : Except Fault (List Chunk) := do
  s.structuralOf (← matchesOf queries.structural root)

/-- Whether a block inside a parent chunk is kept: it is at no parent's place, inside this parent,
and neither too short nor too long. -/
def keepsBlock (s : Setting) (parents : List Chunk) (parent : Chunk) (span : Span) : Bool :=
  let size := (Text.Utf8.decodeLossy (slice s.source span.start span.stop)).length
  !parents.any (·.span.range == span.range) && parent.span.contains span &&
    blockMinLines ≤ span.lineCount && blockMinChars ≤ size && size ≤ blockMaxChars

/-- The finds of a block query inside one parent chunk, searched below `scope`. -/
def blockFinds (s : Setting) (parents : List Chunk) (parent : Chunk) (scope : Node)
    (query : Query) : Except Fault (List Chunk) := do
  let found ← (query scope).mapError .text
  let spans ← (s.typedNodes (groupCaptures found.flatten)).mapM fun (chunkType, n) => do
    return (chunkType, ← nodeSpan s.source s.lines n)
  return (spans.filter (s.keepsBlock parents parent ·.2)).map fun (chunkType, span) =>
    s.chunk span chunkType none

/-- The blocks inside parent chunks, each searched below the node that `scopeOf` gives. -/
def blocksWithin (s : Setting) (queries : Queries) (scopeOf : Span → Option Node)
    (parents : List Chunk) : Except Fault (List Chunk) := do
  let finds ← parents.mapM fun parent =>
    match scopeOf parent.span with
    | none => .ok []
    | some scope => (queries.blocks.mapM (s.blockFinds parents parent scope)).map List.flatten
  return s.collect finds.flatten

/-- The blocks inside parent chunks of a tree. -/
def blocks (s : Setting) (queries : Queries) (root : Node) (parents : List Chunk) :
    Except Fault (List Chunk) :=
  s.blocksWithin queries (fun span => root.covering? span.start span.stop) parents

/-- The whole file as a chunk. -/
def wholeFile (s : Setting) : Except Fault Chunk := do
  let span ← (s.lines.span 0 s.source.length).mapError .place
  return s.chunk span .file (some (Path.name s.path))

end Setting

end Candidates

end CodeChallenges

import CodeChallenges.ChunkType
import CodeChallenges.Text.Blank
import CodeChallenges.Text.LetterCase
/-!
Languages as data: which files belong to a language, which patterns find its code, and which kind
of code wins when two claim one place.  A table entry says the same in raw texts and is checked by
`Language.ofEntry`.
-/

namespace CodeChallenges

/-- The fewest lines of a challenge unless its language says otherwise. -/
def defaultMinLines : Int := 4

/-- A language.  `captures` gives the kind of code that a capture name of the patterns stands for,
and `priority` lists kinds from the strongest claim to the weakest. -/
structure Language where
  name : String
  displayName : String
  grammar : String
  extensions : List String
  aliases : List String := []
  patterns : List String := []
  blockPatterns : List String := []
  captures : List (String × ChunkType) := []
  priority : List ChunkType := []
  commentKinds : List String := []
  importKinds : List String := []
  minLines : Int := defaultMinLines
  color : String := "#cccccc"

namespace Language

/-- The form in which names, aliases and extensions are compared: without outer blanks, in lower
case, without leading dots. -/
def normalize (key : String) : String :=
  String.ofList ((Text.lower (Text.trim key.toList)).dropWhile (· == '.'))

/-- Whether a node kind is a comment. -/
def isComment (l : Language) (kind : String) : Bool :=
  l.commentKinds.contains kind

/-- Whether a node kind is an import or a like declaration. -/
def isImport (l : Language) (kind : String) : Bool :=
  l.importKinds.contains kind

/-- The kind of code that a capture name stands for. -/
def chunkTypeFor (l : Language) (capture : String) : Option ChunkType :=
  l.captures.lookup capture

/-- The rank of a kind; the lowest rank wins a place that several kinds claim, and kinds without a
priority share the last rank. -/
def rank (l : Language) (t : ChunkType) : Nat :=
  l.priority.idxOf t

/-- A language as a table writes it.  An empty or absent text stands for its default. -/
structure Entry where
  name : Option String := none
  displayName : String := ""
  grammar : String := ""
  extensions : List String := []
  aliases : List String := []
  patterns : List String := []
  blockPatterns : List String := []
  captures : List (String × String) := []
  priority : List String := []
  commentKinds : List String := []
  importKinds : List String := []
  minLines : Int := defaultMinLines
  color : String := ""

/-- Why an entry is no language. -/
inductive Fault where
  | unknownChunkType (tag : String)
  | missingName
  deriving DecidableEq

/-- The message for a fault. -/
def Fault.message : Fault → String
  | .unknownChunkType tag => ChunkType.unknownTagMessage tag
  | .missingName => "'name'"

/-- The kind with a given tag, or the fault. -/
def chunkTypeOf (tag : String) : Except Fault ChunkType :=
  match ChunkType.ofTag? tag with
  | some t => .ok t
  | none => .error (.unknownChunkType tag)

/-- A text unless it is empty. -/
def orElse (text default : String) : String :=
  if text == "" then default else text

/-- The language of an entry: captures are checked before priorities, and these before the name. -/
def ofEntry (e : Entry) : Except Fault Language := do
  let captures ← e.captures.mapM fun c => do return (c.1, ← chunkTypeOf c.2)
  let priority ← e.priority.mapM chunkTypeOf
  let some name := e.name | .error .missingName
  return {
    name
    displayName := orElse e.displayName name
    grammar := orElse e.grammar name
    extensions := e.extensions.map normalize
    aliases := e.aliases.map normalize
    patterns := e.patterns
    blockPatterns := e.blockPatterns
    captures
    priority := if priority.isEmpty then ChunkType.all else priority
    commentKinds := e.commentKinds
    importKinds := e.importKinds
    minLines := e.minLines
    color := orElse e.color "#cccccc" }

end Language

end CodeChallenges

import CodeChallenges.Glob.Piece
import CodeChallenges.Text.Blank
import CodeChallenges.Text.Lines
import CodeChallenges.Text.Quoted
/-!
Globs over paths, in the two dialects in use.  Lists of globs on the command line are plain; the
lines of an ignore file also tell a match of a directory from a match of what lies below it.  A
glob is cut into segments at its slashes, the segments are completed to a normal form, and the
normal form is written as pieces.
-/

namespace CodeChallenges.Glob

/-- The two dialects. -/
inductive Dialect where
  | plain
  | ignoreFile
  deriving DecidableEq

/-- Why a text is no glob. -/
inductive Fault where
  | invalid (pattern : String)
  | badRange (range : BadRange) (written : List Char)
  deriving DecidableEq

/-- The line and column of a position in a text that has several lines. -/
def lineAndColumn (position : Nat) (text : List Char) : Nat × Nat :=
  let before := text.take position
  (before.count '\n' + 1, (before.reverse.takeWhile (· != '\n')).length + 1)

/-- Where a bad range stands. -/
def placeOf (position : Nat) (text : List Char) : String :=
  if text.contains '\n' then
    let (line, column) := lineAndColumn position text
    s!"position {position} (line {line}, column {column})"
  else s!"position {position}"

/-- A character of a class as it is written. -/
def writtenClassChar (c : Char) : String :=
  String.ofList (writtenClassBody [c])

/-- The message for a fault. -/
def Fault.message : Fault → String
  | .invalid pattern => s!"Invalid git pattern: {Text.quoted pattern}"
  | .badRange range text =>
    let first := writtenClassChar range.first
    let last := writtenClassChar range.last
    s!"bad character range {first}-{last} at {placeOf range.position text}"

/-- The text of a class after its opening bracket and its sign, and what follows its closing
bracket; a closing bracket at the very front belongs to the text. -/
def classBody? : List Char → Option (List Char × List Char)
  | [] => none
  | c :: cs =>
    match cs.dropWhile (· != ']') with
    | [] => none
    | _ :: after => some (c :: cs.takeWhile (· != ']'), after)

theorem classBody?_length {cs body after : List Char} (h : classBody? cs = some (body, after)) :
    after.length < cs.length := by
  cases cs with
  | nil => simp [classBody?] at h
  | cons c cs =>
    have hle := (List.dropWhile_suffix (fun c => c != ']') (l := cs)).length_le
    simp only [classBody?] at h
    cases hd : cs.dropWhile (fun c => c != ']') with
    | nil => simp [hd] at h
    | cons d ds =>
      rw [hd] at h hle
      simp only [Option.some.injEq, Prod.mk.injEq] at h
      simp only [List.length_cons] at hle ⊢
      rw [← h.2]
      omega

/-- The text after the opening bracket of a class without its sign, and whether it has one. -/
def classSign : List Char → Bool × List Char
  | '!' :: cs => (true, cs)
  | '^' :: cs => (true, cs)
  | cs => (false, cs)

theorem classSign_length (cs : List Char) : (classSign cs).2.length ≤ cs.length := by
  unfold classSign
  split <;> simp

/-- What ends the reading of a segment before its end. -/
inductive Stop where
  /-- A backslash with nothing to escape. -/
  | loneBackslash
  /-- A bracket that is not closed. -/
  | openBracket

/-- The pieces of a segment.  A bracket that is not closed stands for itself in the plain dialect
and stops the reading in an ignore file. -/
def segmentPieces (d : Dialect) : List Char → Except Stop (List Piece)
  | [] => .ok []
  | '\\' :: [] => .error .loneBackslash
  | '\\' :: c :: cs => do return .literal c :: (← segmentPieces d cs)
  | '*' :: cs => do return .star :: (← segmentPieces d cs)
  | '?' :: cs => do return .question :: (← segmentPieces d cs)
  | '[' :: cs =>
    match _h : classBody? (classSign cs).2 with
    | some (body, after) => do
      return .charClass (classSign cs).1 body :: (← segmentPieces d after)
    | none =>
      match d with
      | .plain => do return .literal '[' :: (← segmentPieces d cs)
      | .ignoreFile => .error .openBracket
  | c :: cs => do return .literal c :: (← segmentPieces d cs)
  termination_by cs => cs.length
  decreasing_by
    all_goals simp only [List.length_cons]
    any_goals omega
    have := classBody?_length _h
    have := classSign_length cs
    omega

/-- A segment that stands for any number of directories. -/
def anyDirs : List Char := ['*', '*']

/-- Completes the segments of a glob: a glob without an inner slash applies at any depth, and one
that ends in a slash applies to all below. -/
def completeSegments (segments : List (List Char)) : List (List Char) :=
  let rooted := match segments with
    | [] :: rest => rest
    | [s] => if s == anyDirs then [s] else [anyDirs, s]
    | [s, []] => if s == anyDirs then [s, []] else [anyDirs, s, []]
    | _ => segments
  match rooted.reverse with
  | [] :: before => (anyDirs :: before).reverse
  | _ => rooted

/-- Segments in which no two neighbours both stand for any directories. -/
def mergeAnyDirs : List (List Char) → List (List Char)
  | a :: b :: rest =>
    if a == anyDirs && b == anyDirs then mergeAnyDirs (b :: rest) else a :: mergeAnyDirs (b :: rest)
  | segments => segments

/-- The end of a glob whose last segment is a name. -/
def nameEndPiece (d : Dialect) (segment : List Char) : Piece :=
  match d with
  | .plain => if segment == ['*'] then .pathEnd else .nameEnd
  | .ignoreFile => .markedNameEnd

/-- The slash that ends a glob for what lies below a directory. -/
def belowPiece (d : Dialect) (forDirectory : Bool) : Piece :=
  if d == .ignoreFile && forDirectory then .directoryMark else .slash

/-- The pieces of a segment that is no `**`. -/
def namePieces (d : Dialect) (segment : List Char) : Except Stop (List Piece) :=
  if segment == ['*'] then .ok [.wholeName] else segmentPieces d segment

/-- The pieces of the segments after the first; `needSlash` says that a name came before. -/
def laterPieces (d : Dialect) (forDirectory needSlash : Bool) :
    List (List Char) → Except Stop (List Piece)
  | [] => .ok []
  | segment :: rest =>
    if segment == anyDirs then
      if rest.isEmpty then .ok [belowPiece d forDirectory]
      else do return .middleDirs :: (← laterPieces d forDirectory true rest)
    else do
      let name ← namePieces d segment
      let ending := if rest.isEmpty then [nameEndPiece d segment] else []
      let later ← laterPieces d forDirectory true rest
      return (if needSlash then [.slash] else []) ++ name ++ ending ++ later

/-- The pieces of completed segments. -/
def piecesOf (d : Dialect) (forDirectory : Bool) (segments : List (List Char)) :
    Except Stop (List Piece) :=
  if segments == [anyDirs] then
    .ok [if forDirectory then belowPiece d true else .anything]
  else if segments == [anyDirs, ['*']] then .ok [.anything]
  else if segments == [anyDirs, ['*'], anyDirs] then .ok [belowPiece d forDirectory]
  else match segments with
    | [] => .ok []
    | segment :: rest =>
      if segment == anyDirs then do
        return .startDirs :: (← laterPieces d forDirectory false rest)
      else do return .start :: (← laterPieces d forDirectory false segments)

/-- The text of a glob without blanks at its end, unless the last of them is escaped. -/
def withoutTrailingBlanks (pattern : List Char) : List Char :=
  if ['\\', ' '].isSuffixOf pattern then pattern else Text.trimEnd pattern

end CodeChallenges.Glob

namespace CodeChallenges

/-- A glob: what it matches, and whether a match takes a path in or out. -/
structure Glob where
  takesIn : Bool
  regex : Regex

namespace Glob

/-- Whether a text says nothing: it is empty or a comment, or in an ignore file a lone slash. -/
def saysNothing (d : Dialect) (pattern : List Char) : Bool :=
  pattern.isEmpty || pattern.head? == some '#' || (d == .ignoreFile && pattern == ['/'])

/-- The pieces of a text after its exclamation mark, or nothing for a text that says nothing. -/
def readBody (d : Dialect) (pattern : String) (body : List Char) :
    Except Fault (Option (List Piece)) :=
  let raw := Text.splitOnChar '/' body
  let forDirectory := raw.getLast? == some [] && !(d == .plain && body == ['/'])
  let segments := mergeAnyDirs (completeSegments raw)
  if segments.isEmpty then .error (.invalid pattern)
  else match piecesOf d forDirectory segments with
    | .ok pieces => .ok (some pieces)
    | .error .loneBackslash => .error (.invalid pattern)
    | .error .openBracket => .ok none

/-- The glob that a text writes, or nothing for a text that says nothing. -/
def ofPattern (d : Dialect) (pattern : String) : Except Fault (Option Glob) := do
  let text := withoutTrailingBlanks pattern.toList
  if saysNothing d text then return none
  let takesIn := text.head? != some '!'
  let some pieces ← readBody d pattern (if takesIn then text else text.drop 1) | return none
  match regexFrom 0 pieces with
  | .ok regex => return some { takesIn, regex }
  | .error range => throw (.badRange range (writtenForm pieces))

/-- The path as globs see it: a slash, or else a dot and a slash, in front of it are removed. -/
def normalizePath (path : List Char) : List Char :=
  match path with
  | '/' :: rest => rest
  | '.' :: '/' :: rest => rest
  | _ => path

end Glob

/-- Globs for including or excluding paths; the last glob that matches a path decides. -/
structure GlobList where
  globs : List Glob

namespace GlobList

/-- The globs that are written in a list of texts. -/
def ofPatterns (patterns : List String) : Except Glob.Fault GlobList := do
  let globs ← patterns.mapM (Glob.ofPattern .plain)
  return ⟨globs.filterMap id⟩

/-- The list for patterns of which the blank ones do not count; nothing when none is left. -/
def compile (patterns : List String) : Except Glob.Fault (Option GlobList) :=
  match (patterns.map Text.trimmed).filter (· != "") with
  | [] => .ok none
  | texts => (ofPatterns texts).map some

/-- Whether the list takes a path in. -/
def accepts (l : GlobList) (path : String) : Bool :=
  let text := Glob.normalizePath path.toList
  match l.globs.reverse.find? (·.regex.matchesIn text) with
  | some glob => glob.takesIn
  | none => false

end GlobList

/-- The globs of an ignore file.  A later match decides over an earlier one, but a match of what
lies below a directory gives way to any match of the path itself. -/
structure IgnoreList where
  globs : List Glob

namespace IgnoreList

/-- The globs of the lines of an ignore file. -/
def ofLines (lines : List String) : Except Glob.Fault IgnoreList := do
  let globs ← lines.mapM (Glob.ofPattern .ignoreFile)
  return ⟨globs.filterMap id⟩

/-- The decision of globs, the latest first, given the decision of a directory so far. -/
def decide (text : List Char) (below : Option Bool) : List Glob → Option Bool
  | [] => below
  | glob :: earlier =>
    match glob.regex.search text with
    | none => decide text below earlier
    | some false => some glob.takesIn
    | some true => decide text (below.orElse fun _ => some glob.takesIn) earlier

/-- Whether the list ignores a path. -/
def ignores (l : IgnoreList) (path : String) : Bool :=
  (decide (Glob.normalizePath path.toList) none l.globs.reverse).getD false

end IgnoreList

end CodeChallenges

import CodeChallenges.Regex
/-!
The pieces of a path glob.  A glob is a sequence of pieces; each piece has a meaning as an
expression over paths and a written form, in which the positions of errors are counted.
-/

namespace CodeChallenges.Glob

/-- A piece of a glob. -/
inductive Piece where
  /-- One character as it is. -/
  | literal (c : Char)
  /-- Any part of a name. -/
  | star
  /-- One character of a name. -/
  | question
  /-- One character of a class, whose text stands between brackets. -/
  | charClass (negated : Bool) (body : List Char)
  /-- A whole name. -/
  | wholeName
  /-- The start of the path. -/
  | start
  /-- The start of the path and any directories. -/
  | startDirs
  /-- Any directories between two names. -/
  | middleDirs
  /-- The slash between two names. -/
  | slash
  /-- The slash after the name of a directory that the glob asks for. -/
  | directoryMark
  /-- The end of the path, perhaps after a slash. -/
  | pathEnd
  /-- The end of a name: a slash or the end of the path. -/
  | nameEnd
  /-- The end of a name, whose slash is a directory mark. -/
  | markedNameEnd
  /-- Any character. -/
  | anything
  deriving DecidableEq

/-- Characters that are written with a backslash. -/
def isSpecial (c : Char) : Bool :=
  "()[]?*+-|^$\\.&~# \t\n\r".toList.contains c || c.toNat == 0x7b || c.toNat == 0x7d ||
    c.toNat == 0x0b || c.toNat == 0x0c

/-- A class text with its backslashes doubled. -/
def writtenClassBody (body : List Char) : List Char :=
  body.flatMap fun c => if c == '\\' then ['\\', '\\'] else [c]

/-- The written form of a piece. -/
def Piece.written : Piece → List Char
  | .literal c => if isSpecial c then ['\\', c] else [c]
  | .star => "[^/]*".toList
  | .question => "[^/]".toList
  | .charClass negated body =>
    '[' :: (if negated then ['^'] else []) ++ writtenClassBody body ++ [']']
  | .wholeName => "[^/]+".toList
  | .start => ['^']
  | .startDirs => "^(?:.+/)?".toList
  | .middleDirs => "(?:/.+)?".toList
  | .slash => ['/']
  | .directoryMark => "(?P<ps_d>/)".toList
  | .pathEnd => "/?$".toList
  | .nameEnd => "(?:/|$)".toList
  | .markedNameEnd => "(?:(?P<ps_d>/)|$)".toList
  | .anything => ['.']

/-- A range of a class whose ends are in the wrong order: `position` counts written characters
before it. -/
structure BadRange where
  first : Char
  last : Char
  position : Nat
  deriving DecidableEq

/-- How many characters write one character of a class. -/
def classCharWidth (c : Char) : Nat :=
  if c == '\\' then 2 else 1

/-- The ranges of a class text whose written form begins at `position`.  A hyphen between two
characters makes a range; at either end it stands for itself. -/
def classRanges (position : Nat) : List Char → Except BadRange (List (Char × Char))
  | [] => .ok []
  | [c] => .ok [(c, c)]
  | [c, d] => .ok [(c, c), (d, d)]
  | c :: '-' :: d :: rest =>
    if d < c then .error ⟨c, d, position⟩
    else do
      let ranges ← classRanges (position + classCharWidth c + 1 + classCharWidth d) rest
      return (c, d) :: ranges
  | c :: rest => do
    let ranges ← classRanges (position + classCharWidth c) rest
    return (c, c) :: ranges

/-- A name is made of everything but slashes. -/
def nameChar : CharSet :=
  CharSet.allBut '/'

/-- A slash. -/
def slashRegex : Regex :=
  .one (CharSet.just '/')

/-- The meaning of a piece whose written form begins at `position`. -/
def Piece.regex (position : Nat) : Piece → Except BadRange Regex
  | .literal c => .ok (.one (CharSet.just c))
  | .star => .ok (.many nameChar)
  | .question => .ok (.one nameChar)
  | .charClass negated body => do
    let ranges ← classRanges (position + if negated then 2 else 1) body
    return .one ⟨negated, ranges⟩
  | .wholeName => .ok (Regex.many1 nameChar)
  | .start => .ok .textStart
  | .startDirs =>
    .ok (.seq .textStart (Regex.optional (.seq (Regex.many1 Regex.anyChar) slashRegex)))
  | .middleDirs => .ok (Regex.optional (.seq slashRegex (Regex.many1 Regex.anyChar)))
  | .slash => .ok slashRegex
  | .directoryMark => .ok (.mark slashRegex)
  | .pathEnd => .ok (.seq (Regex.optional slashRegex) .textEnd)
  | .nameEnd => .ok (.orElse slashRegex .textEnd)
  | .markedNameEnd => .ok (.orElse (.mark slashRegex) .textEnd)
  | .anything => .ok (.one Regex.anyChar)

/-- The written form of a sequence of pieces. -/
def writtenForm (pieces : List Piece) : List Char :=
  pieces.flatMap Piece.written

/-- The meaning of a sequence of pieces whose written form begins at `position`. -/
def regexFrom (position : Nat) : List Piece → Except BadRange Regex
  | [] => .ok .empty
  | piece :: pieces => do
    let first ← piece.regex position
    let rest ← regexFrom (position + piece.written.length) pieces
    return .seq first rest

end CodeChallenges.Glob

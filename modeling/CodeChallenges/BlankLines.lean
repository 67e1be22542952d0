import CodeChallenges.Text.Blank
/-!
Shrinking runs of blank lines.  A text is cut into lines with their terminators and the lines into
runs: a maximal run of blank lines, or one line that is not blank.  A blank run is replaced by the
terminators of its first lines; every other line stays as it is.  With the new text comes a map
from each old character position, the end included, to its position in the new text.
-/

namespace CodeChallenges.BlankLines

/-- Puts a character in front of lines: a newline is a line of its own until something precedes
it. -/
def addChar (c : Char) (lines : List (List Char)) : List (List Char) :=
  if c == '\n' then [c] :: lines
  else match lines with
    | [] => [[c]]
    | line :: rest => (c :: line) :: rest

/-- The lines of a text, each with its newline; the last may have none. -/
def linesOf (text : List Char) : List (List Char) :=
  text.foldr addChar []

/-- Whether a line holds blank characters only. -/
def isBlankLine (line : List Char) : Bool :=
  line.all Text.isBlank

/-- The terminator of a line. -/
def terminator (line : List Char) : List Char :=
  match line.reverse with
  | '\n' :: '\r' :: _ => ['\r', '\n']
  | '\n' :: _ => ['\n']
  | _ => []

/-- A maximal run of blank lines, or one other line. -/
inductive Run where
  | blank (lines : List (List Char))
  | solid (line : List Char)
  deriving DecidableEq

/-- Puts a line in front of runs. -/
def addLine (line : List Char) (runs : List Run) : List Run :=
  if isBlankLine line then
    match runs with
    | .blank lines :: rest => .blank (line :: lines) :: rest
    | _ => .blank [line] :: runs
  else .solid line :: runs

/-- The runs of a list of lines. -/
def runsOf (lines : List (List Char)) : List Run :=
  lines.foldr addLine []

/-- The first `n` items of a list; a negative `n` leaves out as many at the end. -/
def takeFirst {α : Type} (n : Int) (items : List α) : List α :=
  items.take (if n < 0 then items.length - n.natAbs else n.toNat)

/-- The length of a run in the old text. -/
def Run.oldLength : Run → Nat
  | .blank lines => lines.flatten.length
  | .solid line => line.length

/-- What stands for a run in the new text. -/
def Run.kept (maxRun : Int) : Run → List Char
  | .blank lines => (takeFirst maxRun lines).flatMap terminator
  | .solid line => line

/-- The new positions of the characters of a run whose replacement begins at `base`. -/
def Run.positions (base : Nat) : Run → List Nat
  | .blank lines => List.replicate lines.flatten.length base
  | .solid line => List.range' base line.length

/-- The new positions of all characters of a list of runs and of the end. -/
def positionsFrom (maxRun : Int) (base : Nat) : List Run → List Nat
  | [] => [base]
  | run :: runs =>
    run.positions base ++ positionsFrom maxRun (base + (run.kept maxRun).length) runs

/-- A text with shrunk blank runs, and where each old position went. -/
structure Collapsed where
  text : List Char
  mapping : List Nat

/-- Shrinks every run of blank lines to at most `maxRun` empty lines. -/
def collapse (text : List Char) (maxRun : Int) : Collapsed :=
  let runs := runsOf (linesOf text)
  ⟨runs.flatMap (Run.kept maxRun), positionsFrom maxRun 0 runs⟩

end CodeChallenges.BlankLines

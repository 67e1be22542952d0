/-!
Lines and pieces of a text.  `lines` takes the widest reading of a line break: line feed, carriage
return (one break together with a line feed after it), vertical tab, form feed, the three upper
information separators, next line, and the line and paragraph separators.  `splitOnChar` divides a
text at one character.
-/

namespace CodeChallenges.Text

/-- Characters that end a line. -/
def isLineBreak (c : Char) : Bool :=
  let n := c.toNat
  (0x0a ≤ n && n ≤ 0x0d) || (0x1c ≤ n && n ≤ 0x1e) || n == 0x85 || n == 0x2028 || n == 0x2029

/-- The lines of a text whose current line, reversed, is `current`; a last empty line is none. -/
def linesFrom (current : List Char) : List Char → List (List Char)
  | [] => if current.isEmpty then [] else [current.reverse]
  | '\r' :: '\n' :: rest => current.reverse :: linesFrom [] rest
  | c :: rest =>
    if isLineBreak c then current.reverse :: linesFrom [] rest else linesFrom (c :: current) rest

/-- The lines of a text, without their breaks. -/
def lines (cs : List Char) : List (List Char) :=
  linesFrom [] cs

/-- Puts a character in front of pieces that a separator divides. -/
def addToPieces (sep c : Char) (pieces : List (List Char)) : List (List Char) :=
  if c == sep then [] :: pieces
  else match pieces with
    | [] => [[c]]
    | piece :: rest => (c :: piece) :: rest

/-- The pieces of a text between occurrences of a character; always at least one piece. -/
def splitOnChar (sep : Char) (cs : List Char) : List (List Char) :=
  cs.foldr (addToPieces sep) [[]]

end CodeChallenges.Text

/-!
Filling lines with text.  A text is cut into pieces, which are blanks and words; a word of letters may
be cut after a hyphen.  Lines take pieces as long as these fit, no line begins or ends with a blank,
and a piece that is longer than a line is spread over several.
-/

namespace CodeChallenges.Text.Wrap

/-- Letters, between which a hyphen joins words. -/
def isLetter (c : Char) : Bool :=
  c.isAlpha || c == '_'

/-- Whether what stands before a hyphen, last character first, ends in a part of a word. -/
def endsPart : List Char → Bool
  | b :: '-' :: a :: _ => isLetter a && isLetter b
  | b :: a :: _ => isLetter a && isLetter b
  | _ => false

/-- Whether what stands after a hyphen begins with a part of a word. -/
def beginsPart : List Char → Bool
  | a :: '-' :: b :: _ => isLetter a && isLetter b
  | a :: b :: _ => isLetter a && isLetter b
  | _ => false

/-- The pieces of a text.  `before` holds the characters of the word before this place and `piece`
those of the piece, last first. -/
def piecesFrom (before piece : List Char) : List Char → List (List Char)
  | [] => [piece.reverse]
  | ' ' :: cs => piece.reverse :: [' '] :: piecesFrom [] [] cs
  | '-' :: cs =>
    if endsPart before && beginsPart cs then
      ('-' :: piece).reverse :: piecesFrom ('-' :: before) [] cs
    else piecesFrom ('-' :: before) ('-' :: piece) cs
  | c :: cs => piecesFrom (c :: before) (c :: piece) cs

/-- The pieces of a text; together they are the text. -/
def pieces (text : List Char) : List (List Char) :=
  (piecesFrom [] [] text).filter (· != [])

/-- How much of a piece that does not fit goes into the room that is left: up to the last hyphen that
fits and follows anything else, or else all that fits. -/
def cut (room : Nat) (piece : List Char) : Nat :=
  let tail := ((piece.take room).reverse.takeWhile (· != '-')).length
  let head := piece.take (room - tail - 1)
  if tail < room && head.any (· != '-') then room - tail else room

/-- A long piece in parts, of which each but the last fills a line. -/
def parts (width : Nat) (piece : List Char) : List (List Char) :=
  if _h : 0 < width ∧ width < piece.length then
    let size := max 1 (cut width piece)
    piece.take size :: parts width (piece.drop size)
  else [piece]
  termination_by piece.length
  decreasing_by
    have : 1 ≤ max 1 (cut width piece) := Nat.le_max_left ..
    simp only [List.length_drop]
    omega

/-- Lines that are full, last first, and the pieces of the line that is being filled, last first. -/
structure Filling where
  full : List (List Char) := []
  current : List (List Char) := []

namespace Filling

/-- The length of the line that is being filled. -/
def length (f : Filling) : Nat :=
  f.current.foldl (fun n piece => n + piece.length) 0

/-- Ends the line that is being filled, without a blank at its end. -/
def flush (f : Filling) : Filling :=
  let kept := match f.current with
    | last :: rest => if last.all (· == ' ') then rest else last :: rest
    | [] => []
  { full := if kept.isEmpty then f.full else kept.reverse.flatten :: f.full }

/-- Puts a piece at the end of the line that is being filled. -/
def put (f : Filling) (piece : List Char) : Filling :=
  { f with current := piece :: f.current }

/-- Adds a piece.  A blank is left out where a line begins. -/
def add (width : Nat) (f : Filling) (piece : List Char) : Filling :=
  if f.length + piece.length ≤ width then
    if piece == [' '] && f.current.isEmpty && !f.full.isEmpty then f else f.put piece
  else if piece.length ≤ width then
    if piece == [' '] then f.flush else f.flush.put piece
  else
    let size := cut (width - f.length) piece
    (parts width (piece.drop size)).foldl (fun f part => f.flush.put part)
      (f.put (piece.take size))

end Filling

/-- The lines of a text, none longer than the width. -/
def lines (width : Nat) (text : List Char) : List (List Char) :=
  ((pieces text).foldl (Filling.add width) {}).flush.full.reverse

end CodeChallenges.Text.Wrap

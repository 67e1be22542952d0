import CodeChallenges.Text.LetterCase.Table
/-!
Lower and upper case of whole texts.  Both maps may lengthen a text, and lower case looks at its
surroundings in one place: a capital sigma that ends a word becomes the final small sigma.
-/

namespace CodeChallenges.Text

/-- The image of a character under the first run that covers it. -/
def shiftedCase (table : List CaseShift) (c : Char) : Char :=
  ((table.findSome? (·.image? c.toNat)).map Char.ofNat).getD c

/-- The nearest character that is not ignorable is a letter that has case. -/
def meetsCased (cs : List Char) : Bool :=
  match cs.dropWhile (inRanges ignorableRanges) with
  | [] => false
  | c :: _ => inRanges casedRanges c

/-- A sigma is final when a cased letter precedes it and none follows it. -/
def isFinalSigma (before after : List Char) : Bool :=
  meetsCased before && !meetsCased after

/-- Lower case of one character between its left context, nearest first, and its right context. -/
def lowerChar (before : List Char) (c : Char) (after : List Char) : List Char :=
  if c == 'Σ' then [if isFinalSigma before after then 'ς' else 'σ']
  else if c == 'İ' then ['i', Char.ofNat 0x307]
  else [shiftedCase lowerShifts c]

/-- Lower case of the rest of a text whose beginning, reversed, is `before`. -/
def lowerFrom (before : List Char) : List Char → List Char
  | [] => []
  | c :: cs => lowerChar before c cs ++ lowerFrom (c :: before) cs

/-- The lower-case form of a text. -/
def lower (cs : List Char) : List Char :=
  lowerFrom [] cs

/-- Upper case of one character. -/
def upperChar (c : Char) : List Char :=
  match upperExpansions.lookup c.toNat with
  | some codes => codes.map Char.ofNat
  | none => [shiftedCase upperShifts c]

/-- The upper-case form of a text. -/
def upper (cs : List Char) : List Char :=
  cs.flatMap upperChar

/-- `upper` on strings. -/
def uppered (s : String) : String :=
  String.ofList (upper s.toList)

end CodeChallenges.Text

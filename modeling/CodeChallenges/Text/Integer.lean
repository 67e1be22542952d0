import CodeChallenges.Text.Blank
import CodeChallenges.Text.Digit
/-!
Reading a decimal integer as people type it: blanks around it, a sign, digits of any script, and
single underscores between digits.
-/

namespace CodeChallenges.Text

/-- Longer numbers are refused. -/
def maxIntegerDigits : Nat := 4300

/-- Blanks that may surround a number; the information separators may not. -/
def isNumberSpace (c : Char) : Bool :=
  isBlank c && !(0x1c ≤ c.toNat && c.toNat ≤ 0x1f)

/-- The digit values of a run of digits in which single underscores may stand between digits. -/
def digitValues? : List Char → Option (List Nat)
  | [] => none
  | [c] => (digitValue? c).map ([·])
  | c :: '_' :: rest => do return (← digitValue? c) :: (← digitValues? rest)
  | c :: rest => do return (← digitValue? c) :: (← digitValues? rest)

/-- The number that digit values write, most significant first. -/
def ofDigitValues (ds : List Nat) : Nat :=
  ds.foldl (fun n d => 10 * n + d) 0

/-- Reads an unsigned number of at most `maxIntegerDigits` digits. -/
def readNat? (cs : List Char) : Option Nat := do
  let ds ← digitValues? cs
  if ds.length ≤ maxIntegerDigits then some (ofDigitValues ds) else none

/-- Reads an integer, with an optional sign directly before its digits. -/
def readInt? (cs : List Char) : Option Int :=
  let body := ((cs.dropWhile isNumberSpace).reverse.dropWhile isNumberSpace).reverse
  match body with
  | '-' :: ds => (readNat? ds).map fun n => -(n : Int)
  | '+' :: ds => (readNat? ds).map fun n => (n : Int)
  | ds => (readNat? ds).map fun n => (n : Int)

end CodeChallenges.Text

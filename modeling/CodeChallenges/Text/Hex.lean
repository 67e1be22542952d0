/-!
Hexadecimal digits of a fixed number.
-/

namespace CodeChallenges.Text

/-- The `width` low hexadecimal digits of a number, in lower case. -/
def hexDigits (width n : Nat) : List Char :=
  match width with
  | 0 => []
  | w + 1 => hexDigits w (n / 16) ++ [Nat.digitChar (n % 16)]

end CodeChallenges.Text

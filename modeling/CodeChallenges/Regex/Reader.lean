import CodeChallenges.Regex
/-!
Reading a regular expression: alternatives between bars, groups in parentheses, the two anchors, a
dot for any character, a backslash before a sign that stands for itself, and repetition of single
characters.  A text with anything else in it, such as a class, a letter after a backslash, a counted
repetition or a repetition of the shortest run, is not read at all.
-/

namespace CodeChallenges.Regex

/-- A part of an expression with the text after it. -/
abbrev Read := Option (Regex × List Char)

/-- Applies the repetition sign that follows, if any; only single characters are repeated any
number of times. -/
def readRepeat (r : Regex) : List Char → Read
  | '?' :: rest => some (optional r, rest)
  | '*' :: rest => match r with
    | .one set => some (.many set, rest)
    | _ => none
  | '+' :: rest => match r with
    | .one set => some (many1 set, rest)
    | _ => none
  | rest => some (r, rest)

/-- Signs that have a meaning of their own where an item begins. -/
def isReserved (c : Char) : Bool :=
  c == '[' || c == '{' || c == '?' || c == '*' || c == '+'

/-- One item without a group. -/
def readAtom : List Char → Read
  | '^' :: rest => some (.textStart, rest)
  | '$' :: rest => some (.textEnd, rest)
  | '.' :: rest => readRepeat (.one anyChar) rest
  | '\\' :: c :: rest =>
    if c.isAlphanum then none else readRepeat (.one (CharSet.just c)) rest
  | ['\\'] => none
  | c :: rest => if isReserved c then none else readRepeat (.one (CharSet.just c)) rest
  | [] => none

/-- The text of a group after its opening sign. -/
def afterGroupSign : List Char → List Char
  | '?' :: ':' :: rest => rest
  | rest => rest

mutual

/-- Alternatives up to a closing parenthesis or the end, with `fuel` items at most. -/
def readAlternatives (fuel : Nat) (cs : List Char) : Read :=
  match fuel with
  | 0 => none
  | fuel + 1 => do
    let (first, rest) ← readItems fuel cs
    match rest with
    | '|' :: rest => do
      let (second, rest) ← readAlternatives fuel rest
      return (.orElse first second, rest)
    | _ => return (first, rest)

/-- Items one after another. -/
def readItems (fuel : Nat) (cs : List Char) : Read :=
  match fuel with
  | 0 => none
  | fuel + 1 =>
    match cs with
    | [] => some (.empty, [])
    | '|' :: _ => some (.empty, cs)
    | ')' :: _ => some (.empty, cs)
    | '(' :: inner => do
      let (group, rest) ← readAlternatives fuel (afterGroupSign inner)
      let ')' :: rest := rest | none
      let (first, rest) ← readRepeat group rest
      let (later, rest) ← readItems fuel rest
      return (.seq first later, rest)
    | _ => do
      let (first, rest) ← readAtom cs
      let (later, rest) ← readItems fuel rest
      return (.seq first later, rest)

end

/-- The expression that a text writes. -/
def ofText? (text : String) : Option Regex := do
  let cs := text.toList
  let (regex, rest) ← readAlternatives (2 * cs.length + 2) cs
  if rest.isEmpty then some regex else none

end CodeChallenges.Regex

/-!
Regular expressions with the operators that path globs and text conditions need.  Matching tries
alternatives in order and runs of characters from the longest to the shortest, so the first match
found is the preferred one; a piece of an expression can be marked, and the answer says whether
the mark was part of the match.
-/

namespace CodeChallenges

/-- Characters within some of the ranges, or outside all of them. -/
structure CharSet where
  negated : Bool
  ranges : List (Char × Char)
  deriving DecidableEq

namespace CharSet

/-- The set that holds one character. -/
def just (c : Char) : CharSet :=
  ⟨false, [(c, c)]⟩

/-- Every character but one. -/
def allBut (c : Char) : CharSet :=
  ⟨true, [(c, c)]⟩

/-- Whether a set holds a character. -/
def contains (s : CharSet) (c : Char) : Bool :=
  (s.ranges.any fun r => r.1 ≤ c && c ≤ r.2) != s.negated

end CharSet

/-- Expressions. -/
inductive Regex where
  | empty
  | one (set : CharSet)
  | many (set : CharSet)
  | seq (first second : Regex)
  | orElse (first second : Regex)
  | textStart
  | textEnd
  | mark (inner : Regex)
  deriving DecidableEq

namespace Regex

/-- A place in a text: whether it is the start, what follows, and whether the mark was passed. -/
structure Place where
  atStart : Bool
  rest : List Char
  marked : Bool

/-- Takes as many characters of a set as the continuation allows, trying more before fewer. -/
def greedy (set : CharSet) (marked : Bool) (next : Place → Option Bool) (atStart : Bool) :
    List Char → Option Bool
  | [] => next ⟨atStart, [], marked⟩
  | c :: cs =>
    if set.contains c then
      (greedy set marked next false cs).orElse fun _ => next ⟨atStart, c :: cs, marked⟩
    else next ⟨atStart, c :: cs, marked⟩

/-- The end of a text, or the place before its last newline. -/
def isTextEnd (rest : List Char) : Bool :=
  rest == [] || rest == ['\n']

/-- Matches an expression at a place and goes on with the continuation. -/
def matchAt : Regex → Place → (Place → Option Bool) → Option Bool
  | .empty, p, next => next p
  | .one set, p, next =>
    match p.rest with
    | [] => none
    | c :: cs => if set.contains c then next ⟨false, cs, p.marked⟩ else none
  | .many set, p, next => greedy set p.marked next p.atStart p.rest
  | .seq a b, p, next => a.matchAt p fun q => b.matchAt q next
  | .orElse a b, p, next => (a.matchAt p next).orElse fun _ => b.matchAt p next
  | .textStart, p, next => if p.atStart then next p else none
  | .textEnd, p, next => if isTextEnd p.rest then next p else none
  | .mark a, p, next => a.matchAt p fun q => next { q with marked := true }

/-- The first match at this or a later place. -/
def searchFrom (r : Regex) (atStart : Bool) : List Char → Option Bool
  | [] => r.matchAt ⟨atStart, [], false⟩ fun p => some p.marked
  | c :: cs =>
    (r.matchAt ⟨atStart, c :: cs, false⟩ fun p => some p.marked).orElse fun _ =>
      searchFrom r false cs

/-- Whether an expression matches somewhere in a text; if so, whether the mark took part. -/
def search (r : Regex) (text : List Char) : Option Bool :=
  searchFrom r true text

/-- Whether an expression matches somewhere in a text. -/
def matchesIn (r : Regex) (text : List Char) : Bool :=
  (r.search text).isSome

/-- Any character but a newline. -/
def anyChar : CharSet :=
  CharSet.allBut '\n'

/-- An expression that may be left out. -/
def optional (r : Regex) : Regex :=
  .orElse r .empty

/-- One or more characters of a set. -/
def many1 (set : CharSet) : Regex :=
  .seq (.one set) (.many set)

/-- Expressions one after another. -/
def sequence (rs : List Regex) : Regex :=
  rs.foldr .seq .empty

/-- A text as an expression. -/
def literal (text : List Char) : Regex :=
  sequence (text.map fun c => .one (CharSet.just c))

end Regex

end CodeChallenges

import CodeChallenges.Regex.Reader
import CodeChallenges.Text.Blank
import CodeChallenges.Tree.Pattern
/-!
Reading patterns.  A text is cut into tokens; a node pattern stands in parentheses, alternatives in
brackets, a role before a colon, a name after an at sign, and a condition in parentheses that begin
with a number sign.
-/

namespace CodeChallenges.Tree.Pattern

/-- The tokens of a pattern text. -/
inductive Token where
  | openNode
  | closeNode
  | openChoice
  | closeChoice
  | dot
  | colon
  | word (text : String)
  | capture (name : String)
  | predicate (name : String)
  | quoted (text : String)
  deriving DecidableEq

/-- Characters of words. -/
def isWordChar (c : Char) : Bool :=
  c.isAlphanum || c == '_' || c == '-' || c == '.' || c == '/' || c == '?' || c == '!'

/-- Characters that begin words. -/
def isWordStart (c : Char) : Bool :=
  c.isAlphanum || c == '_' || c == '-'

/-- The word at the front of a text, and the rest. -/
def takeWord (cs : List Char) : String × List Char :=
  (String.ofList (cs.takeWhile isWordChar), cs.dropWhile isWordChar)

/-- The character that an escape in a quoted text stands for. -/
def unescape : Char → Char
  | 'n' => '\n'
  | 'r' => '\r'
  | 't' => '\t'
  | '0' => Char.ofNat 0
  | c => c

/-- A quoted text after its opening quote, and the rest after its closing quote. -/
def takeQuoted (done : List Char) : List Char → Option (String × List Char)
  | [] => none
  | '"' :: rest => some (String.ofList done.reverse, rest)
  | '\\' :: c :: rest => takeQuoted (unescape c :: done) rest
  | c :: rest => takeQuoted (c :: done) rest

/-- The token at the front of a text, or nothing for a blank. -/
def takeToken (cs : List Char) : Option (Option Token × List Char) :=
  match cs with
  | [] => none
  | '(' :: rest => some (some .openNode, rest)
  | ')' :: rest => some (some .closeNode, rest)
  | '[' :: rest => some (some .openChoice, rest)
  | ']' :: rest => some (some .closeChoice, rest)
  | '.' :: rest => some (some .dot, rest)
  | '_' :: '.' :: rest => some (some (.word "_"), '.' :: rest)
  | ':' :: rest => some (some .colon, rest)
  | ';' :: rest => some (none, rest.dropWhile (· != '\n'))
  | '"' :: rest => (takeQuoted [] rest).map fun (text, rest) => (some (.quoted text), rest)
  | '@' :: rest =>
    let (name, rest) := takeWord rest
    some (some (.capture name), rest)
  | '#' :: rest =>
    let (name, rest) := takeWord rest
    some (some (.predicate name), rest)
  | c :: rest =>
    if Text.isBlank c then some (none, rest)
    else if isWordStart c then
      let (name, rest) := takeWord cs
      some (some (.word name), rest)
    else none

/-- The tokens of a text, at most `fuel` of them with the blanks between. -/
def tokensFrom (fuel : Nat) (cs : List Char) : Option (List Token) :=
  match fuel, cs with
  | _, [] => some []
  | 0, _ => none
  | fuel + 1, cs => do
    let (token, rest) ← takeToken cs
    let tokens ← tokensFrom fuel rest
    return token.toList ++ tokens

/-- The tokens of a text. -/
def tokens (text : String) : Option (List Token) :=
  tokensFrom text.toList.length text.toList

/-- The names after a pattern. -/
def takeCaptures (p : Pattern) : List Token → Pattern × List Token
  | .capture name :: rest => takeCaptures (p.capturing name) rest
  | rest => (p, rest)

/-- A condition after its name. -/
def readCondition (name : String) : List Token → Option (Condition × List Token)
  | .capture capture :: .quoted text :: .closeNode :: rest =>
    match name with
    | "eq?" => some (.equals capture text, rest)
    | "match?" => (Regex.ofText? text).map fun regex => (.matching capture regex, rest)
    | _ => none
  | _ => none

/-- The test for a node that a word writes. -/
def testOf (word : String) : NodeTest :=
  if word == "_" then .anyNamed else .ofKind word

mutual

/-- A pattern with its names, the conditions inside it, and the tokens after it. -/
def readPattern (fuel : Nat) (ts : List Token) :
    Option (Pattern × List Condition × List Token) :=
  match fuel with
  | 0 => none
  | fuel + 1 =>
    match ts with
    | .word "_" :: rest =>
      let (p, rest) := takeCaptures (.node .anything [] []) rest
      some (p, [], rest)
    | .quoted text :: rest =>
      let (p, rest) := takeCaptures (.node (.token text) [] []) rest
      some (p, [], rest)
    | .openNode :: .word word :: rest => do
      let (children, conditions, rest) ← readChildren fuel rest
      let (p, rest) := takeCaptures (.node (testOf word) [] children) rest
      return (p, conditions, rest)
    | .openNode :: rest => do
      let (p, conditions, rest) ← readPattern fuel rest
      let (more, later, rest) ← readChildren fuel rest
      if more.isEmpty then
        let (p, rest) := takeCaptures p rest
        return (p, conditions ++ later, rest)
      else none
    | .openChoice :: rest => do
      let (alternatives, conditions, rest) ← readAlternatives fuel rest
      let (p, rest) := takeCaptures (.oneOf alternatives) rest
      return (p, conditions, rest)
    | _ => none

/-- One child with its place and role. -/
def readChild (fuel : Nat) (ts : List Token) :
    Option (Pattern × List Condition × List Token) :=
  match fuel with
  | 0 => none
  | fuel + 1 =>
    match ts with
    | .dot :: rest => do
      let (p, conditions, rest) ← readChild fuel rest
      return (.adjacent p, conditions, rest)
    | .word name :: .colon :: rest => do
      let (p, conditions, rest) ← readPattern fuel rest
      return (.inField name p, conditions, rest)
    | _ => readPattern fuel ts

/-- Children and conditions up to the closing parenthesis. -/
def readChildren (fuel : Nat) (ts : List Token) :
    Option (List Pattern × List Condition × List Token) :=
  match fuel with
  | 0 => none
  | fuel + 1 =>
    match ts with
    | .closeNode :: rest => some ([], [], rest)
    | .openNode :: .predicate name :: rest => do
      let (condition, rest) ← readCondition name rest
      let (children, conditions, rest) ← readChildren fuel rest
      return (children, condition :: conditions, rest)
    | _ => do
      let (child, conditions, rest) ← readChild fuel ts
      let (children, later, rest) ← readChildren fuel rest
      return (child :: children, conditions ++ later, rest)

/-- Alternatives up to the closing bracket. -/
def readAlternatives (fuel : Nat) (ts : List Token) :
    Option (List Pattern × List Condition × List Token) :=
  match fuel with
  | 0 => none
  | fuel + 1 =>
    match ts with
    | .closeChoice :: rest => some ([], [], rest)
    | _ => do
      let (p, conditions, rest) ← readChild fuel ts
      let (alternatives, later, rest) ← readAlternatives fuel rest
      return (p :: alternatives, conditions ++ later, rest)

end

/-- Rules up to the end of the tokens. -/
def readRules (fuel : Nat) (ts : List Token) : Option (List Rule) :=
  match fuel, ts with
  | _, [] => some []
  | 0, _ => none
  | fuel + 1, ts => do
    let (pattern, conditions, rest) ← readPattern (2 * ts.length + 2) ts
    let rules ← readRules fuel rest
    return ⟨pattern, conditions⟩ :: rules

/-- The rules that a text writes. -/
def rulesOf? (text : String) : Option (List Rule) := do
  let ts ← tokens text
  readRules ts.length ts

end CodeChallenges.Tree.Pattern

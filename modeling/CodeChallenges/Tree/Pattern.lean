import CodeChallenges.Regex
import CodeChallenges.Text.Utf8
import CodeChallenges.Tree.Node
import CodeChallenges.Span
/-!
Patterns over syntax trees.  A pattern says what a node is and which of its children, in order,
match further patterns; it may name the nodes that it matches.  A rule is a pattern with
conditions on the texts of the named nodes.  A query finds the matches of rules, unless it meets a
condition that cannot be checked: texts are equal byte by byte, but a regular expression needs the
characters of a node, and its bytes may be ill-formed.
-/

namespace CodeChallenges.Tree

/-- What a node has to be. -/
inductive NodeTest where
  /-- Any node that could be parsed. -/
  | anything
  /-- Any node that could be parsed and has a name of its own. -/
  | anyNamed
  /-- A node of some kind with a name of its own. -/
  | ofKind (kind : String)
  /-- Punctuation or a keyword. -/
  | token (text : String)
  deriving DecidableEq

/-- The kind of the nodes that stand for what could not be parsed. -/
def errorKind : String := "ERROR"

/-- Whether a node is what the test says.  What could not be parsed is found by its own kind
alone. -/
def NodeTest.accepts : NodeTest → Node → Bool
  | .anything, n => n.kind != errorKind
  | .anyNamed, n => n.label.named && n.kind != errorKind
  | .ofKind kind, n => n.label.named && n.kind == kind
  | .token text, n => !n.label.named && n.kind == text

/-- Patterns. -/
inductive Pattern where
  /-- A node, the names that it gets, and patterns for children in order. -/
  | node (test : NodeTest) (captures : List String) (children : List Pattern)
  /-- One of several patterns. -/
  | oneOf (alternatives : List Pattern)
  /-- A node in a role below its parent. -/
  | inField (field : String) (pattern : Pattern)
  /-- A child with no other named child between it and the one before, or the start. -/
  | adjacent (pattern : Pattern)

/-- A node under a name. -/
structure Capture where
  name : String
  node : Node

namespace Pattern

/-- Whether a pattern for a child asks for no named child before it. -/
def isAdjacent : Pattern → Bool
  | .adjacent _ => true
  | _ => false

/-- The ways to choose one of several siblings, with the siblings after it; an adjacent choice
passes over no named sibling. -/
def choices (adjacent : Bool) : List Node → List (Node × List Node)
  | [] => []
  | n :: ns => (n, ns) :: if adjacent && n.label.named then [] else choices adjacent ns

mutual

/-- Every way in which a pattern matches a node: the named nodes, outer before inner. -/
def matchesAt : Pattern → Node → List (List Capture)
  | .node test captures children, n =>
    if test.accepts n then
      (matchesAmong children n.children).map (captures.map (Capture.mk · n) ++ ·)
    else []
  | .oneOf alternatives, n => matchesOne alternatives n
  | .inField field pattern, n =>
    if n.label.field == some field then pattern.matchesAt n else []
  | .adjacent pattern, n => pattern.matchesAt n

/-- Every way in which one of several patterns matches a node. -/
def matchesOne : List Pattern → Node → List (List Capture)
  | [], _ => []
  | p :: ps, n => p.matchesAt n ++ matchesOne ps n

/-- Every way in which patterns match siblings in order, the leftmost choice first. -/
def matchesAmong : List Pattern → List Node → List (List Capture)
  | [], _ => [[]]
  | p :: ps, siblings =>
    (choices p.isAdjacent siblings).flatMap fun choice =>
      (p.matchesAt choice.1).flatMap fun here =>
        (matchesAmong ps choice.2).map (here ++ ·)

end

/-- The most names that a pattern gives to one node. -/
def maxCaptures : Nat := 3

mutual

/-- The pattern with one more name for the node that it matches, unless it has enough names. -/
def capturing (name : String) : Pattern → Pattern
  | .node test captures children =>
    .node test (if captures.length < maxCaptures then captures ++ [name] else captures) children
  | .oneOf alternatives => .oneOf (capturingAll name alternatives)
  | .inField field pattern => .inField field (pattern.capturing name)
  | .adjacent pattern => .adjacent (pattern.capturing name)

/-- Several patterns with one more name. -/
def capturingAll (name : String) : List Pattern → List Pattern
  | [] => []
  | p :: ps => p.capturing name :: capturingAll name ps

end

end Pattern

/-- A condition on the text of the nodes under a name. -/
inductive Condition where
  | equals (capture text : String)
  | matching (capture : String) (regex : Regex)

/-- The text of a node. -/
def Node.text (source : List UInt8) (n : Node) : List Char :=
  Text.Utf8.decodeLossy (slice source n.start n.stop)

/-- The name whose nodes a condition is about. -/
def Condition.capture : Condition → String
  | .equals name _ => name
  | .matching name _ => name

/-- Whether a condition holds of the bytes of one node. -/
def Condition.holdsOf (bytes : List UInt8) : Condition → Except Text.Utf8.DecodeError Bool
  | .equals _ text => .ok (bytes == Text.Utf8.encode text.toList)
  | .matching _ regex => (Text.Utf8.decode bytes).map regex.matchesIn

/-- Whether a condition holds of the named nodes of a match, checked up to the first node of which
it does not hold. -/
def Condition.holds (source : List UInt8) (captures : List Capture) (condition : Condition) :
    Except Text.Utf8.DecodeError Bool :=
  (captures.filter (·.name == condition.capture)).allM fun c =>
    condition.holdsOf (slice source c.node.start c.node.stop)

/-- A pattern with conditions. -/
structure Rule where
  pattern : Pattern
  conditions : List Condition

/-- The ways in which a rule matches a node.  The conditions of a match are checked in order, up to
the first that does not hold. -/
def Rule.matchesAt (rule : Rule) (source : List UInt8) (n : Node) :
    Except Text.Utf8.DecodeError (List (List Capture)) :=
  (rule.pattern.matchesAt n).filterM fun captures =>
    rule.conditions.allM (·.holds source captures)

/-- A query finds matches in a tree: for each match, the nodes under each name. -/
abbrev Query := Node → Except Text.Utf8.DecodeError (List (List Capture))

/-- The query of a list of rules over a source: by the nodes of the tree in preorder, at each node
rule by rule. -/
def queryOf (rules : List Rule) (source : List UInt8) : Query := fun root => do
  let found ← root.preorder.mapM fun n => rules.mapM (·.matchesAt source n)
  return found.flatten.flatten

/-- Adds a node under its name; a new name goes to the end. -/
def addCapture (groups : List (String × List Node)) (c : Capture) : List (String × List Node) :=
  match groups with
  | [] => [(c.name, [c.node])]
  | (name, nodes) :: rest =>
    if name == c.name then (name, nodes ++ [c.node]) :: rest
    else (name, nodes) :: addCapture rest c

/-- Named nodes by name, names in order of first appearance. -/
def groupCaptures (captures : List Capture) : List (String × List Node) :=
  captures.foldl addCapture []

end CodeChallenges.Tree

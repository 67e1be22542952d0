/-!
Syntax trees of source files.  A node has a kind, a byte range and children in order; a tree is
given by its nodes in preorder, each with the number of its children.
-/

namespace CodeChallenges.Tree

/-- What a node is, apart from its children.  `id` is its position in preorder, `field` its role
below its parent, and `hasError` says that it or something below it could not be parsed. -/
structure Label where
  id : Nat
  kind : String
  start : Nat
  stop : Nat
  named : Bool
  hasError : Bool
  field : Option String
  deriving DecidableEq

/-- A node with its children. -/
inductive Node where
  | mk (label : Label) (children : List Node)

namespace Node

/-- What a node is. -/
def label : Node → Label
  | .mk label _ => label

/-- The children of a node, in order. -/
def children : Node → List Node
  | .mk _ children => children

/-- The first byte of a node. -/
def start (n : Node) : Nat := n.label.start

/-- The byte after a node. -/
def stop (n : Node) : Nat := n.label.stop

/-- The kind of a node. -/
def kind (n : Node) : String := n.label.kind

/-- The children that have names of their own, as opposed to punctuation and keywords. -/
def namedChildren (n : Node) : List Node :=
  n.children.filter (·.label.named)

/-- The first child in a role. -/
def childByField (n : Node) (field : String) : Option Node :=
  n.children.find? (·.label.field == some field)

mutual

/-- A node and all below it, each before its children, in front of other nodes. -/
def preorderThen : Node → List Node → List Node
  | .mk label children, rest => .mk label children :: preorderAllThen children rest

/-- The nodes of several trees in a row, in front of other nodes. -/
def preorderAllThen : List Node → List Node → List Node
  | [], rest => rest
  | n :: ns, rest => n.preorderThen (preorderAllThen ns rest)

end

/-- A node and all below it, each before its children. -/
def preorder (n : Node) : List Node :=
  n.preorderThen []

mutual

theorem preorderThen_append (n : Node) (before after : List Node) :
    n.preorderThen (before ++ after) = n.preorderThen before ++ after := by
  cases n with
  | mk label children => simp only [preorderThen, preorderAllThen_append, List.cons_append]

theorem preorderAllThen_append (ns before after : List Node) :
    preorderAllThen ns (before ++ after) = preorderAllThen ns before ++ after := by
  cases ns with
  | nil => simp only [preorderAllThen]
  | cons n ns => simp only [preorderAllThen, preorderAllThen_append, preorderThen_append]

end

theorem preorderThen_eq (n : Node) (rest : List Node) :
    n.preorderThen rest = n.preorder ++ rest :=
  preorderThen_append n [] rest

theorem preorderAllThen_nil (ns : List Node) : preorderAllThen ns [] = ns.flatMap preorder := by
  induction ns with
  | nil => simp only [preorderAllThen, List.flatMap_nil]
  | cons n ns ih => rw [preorderAllThen, ih, preorderThen_eq, List.flatMap_cons]

/-- The nodes of a tree: its root, then those of the subtrees in order. -/
theorem preorder_mk (label : Label) (children : List Node) :
    (Node.mk label children).preorder = .mk label children :: children.flatMap preorder := by
  rw [preorder, preorderThen, preorderAllThen_nil]

/-- Whether the search for a range that ends at `stop` and starts at `start` passes over a node:
the node ends before the end of the range, or not after its start. -/
def endsBefore (start stop : Nat) (n : Node) : Bool :=
  n.stop < stop || (if n.start == n.stop then n.stop < start else n.stop ≤ start)

mutual

/-- The innermost node that a search for a byte range reaches from a node. -/
def covering (start stop : Nat) : Node → Node
  | .mk label children => coveringIn start stop (.mk label children) children

/-- The search among the children of `current`: the first child that does not end before the range
is entered, unless it starts after the start of the range. -/
def coveringIn (start stop : Nat) (current : Node) : List Node → Node
  | [] => current
  | n :: ns =>
    if n.endsBefore start stop then coveringIn start stop current ns
    else if start < n.start then current
    else n.covering start stop

end

/-- Offsets in look-ups are words of 32 bits. -/
def offsetModulus : Nat := 0x100000000

/-- The innermost node that a look-up of a byte range finds.  The ends of the range are taken as
words, and a range that ends before it starts has no node. -/
def covering? (root : Node) (start stop : Nat) : Option Node :=
  let first := start % offsetModulus
  let last := stop % offsetModulus
  if last < first then none else some (root.covering first last)

/-- Adds a node in front of trees of which the first ones are its children. -/
def addNode (entry : Nat × Label) (trees : List Node) : List Node :=
  .mk entry.2 (trees.take entry.1) :: trees.drop entry.1

/-- The tree of nodes in preorder, each with the number of its children. -/
def ofPreorder? (entries : List (Nat × Label)) : Option Node :=
  (entries.foldr addNode []).head?

end Node

end CodeChallenges.Tree

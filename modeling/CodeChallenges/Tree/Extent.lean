import CodeChallenges.Language
import CodeChallenges.LineMap
import CodeChallenges.Tree.Node
/-!
The extents of comments and of imports in a syntax tree: the outermost nodes of the kinds in
question that are not empty.
-/

namespace CodeChallenges.Tree

/-- The row of a byte offset: the number of newline bytes before it. -/
def rowAt (source : List UInt8) (offset : Nat) : Nat :=
  (source.take offset).count newlineByte

theorem rowAt_mono (source : List UInt8) {a b : Nat} (h : a ≤ b) :
    rowAt source a ≤ rowAt source b :=
  (List.take_sublist_take_left h).count_le newlineByte

namespace Node

/-- The span of a node that is not empty, from the row of its start to the row of its end. -/
def span? (source : List UInt8) (n : Node) : Option Span :=
  if h : n.start < n.stop then
    some {
      start := n.start, stop := n.stop
      firstLine := rowAt source n.start + 1, lastLine := rowAt source n.stop + 1
      start_le_stop := Nat.le_of_lt h
      firstLine_pos := Nat.le_add_left 1 _
      firstLine_le_lastLine := Nat.succ_le_succ (rowAt_mono source (Nat.le_of_lt h)) }
  else none

mutual

/-- The spans of the outermost non-empty nodes of the kinds that `keep` accepts, in order of the
tree; nothing below such a node is looked at. -/
def extents (source : List UInt8) (keep : String → Bool) : Node → List Span
  | .mk label children =>
    match if keep label.kind then span? source (.mk label children) else none with
    | some span => [span]
    | none => extentsAll source keep children

/-- The extents in several trees in a row. -/
def extentsAll (source : List UInt8) (keep : String → Bool) : List Node → List Span
  | [] => []
  | n :: ns => n.extents source keep ++ extentsAll source keep ns

end

/-- The spans of the comments of a tree, in order. -/
def comments (root : Node) (source : List UInt8) (l : Language) : List Span :=
  Span.sorted (root.extents source l.isComment)

/-- The spans of the imports and like declarations of a tree, in order. -/
def imports (root : Node) (source : List UInt8) (l : Language) : List Span :=
  Span.sorted (root.extents source l.isImport)

end Node

end CodeChallenges.Tree

import CodeChallenges.Tree.Extent
/-!
The extents of a tree as they are collected without recursion.  The nodes that are still to be visited
stand on a stack, the next one last.  Each turn takes that node off: if it gives an extent, nothing
below it is visited, and else its children are put on the stack from the last to the first, so that
the first is visited next.
-/

namespace CodeChallenges.Tree.Node

/-- A visit that is under way: the nodes still to be visited, the next one last, and the spans that
have been found. -/
structure Visit where
  stack : List Node
  found : List Span

namespace Visit

/-- The visit of a tree before its first turn. -/
def start (root : Node) : Visit :=
  ⟨[root], []⟩

/-- The visit after one more turn, if a node is left to be visited. -/
def next? (source : List UInt8) (keep : String → Bool) (v : Visit) : Option Visit :=
  v.stack.getLast?.map fun n =>
    match if keep n.kind then n.span? source else none with
    | some span => ⟨v.stack.dropLast, v.found ++ [span]⟩
    | none => ⟨v.stack.dropLast ++ n.children.reverse, v.found⟩

/-- The visit after some more turns, if there are as many. -/
def after? (source : List UInt8) (keep : String → Bool) : Nat → Visit → Option Visit
  | 0, v => some v
  | turns + 1, v => (v.next? source keep).bind (after? source keep turns)

/-- The nodes that can still be visited. -/
def ahead (v : Visit) : List Node :=
  v.stack.flatMap preorder

/-- Every turn leaves fewer nodes ahead: the one that is taken off is not met again. -/
theorem length_ahead_next? {source : List UInt8} {keep : String → Bool} {v w : Visit}
    (h : v.next? source keep = some w) : w.ahead.length < v.ahead.length := by
  obtain ⟨n, hn, rfl⟩ := Option.map_eq_some_iff.mp h
  obtain ⟨rest, hrest⟩ := List.getLast?_eq_some_iff.mp hn
  obtain ⟨label, children⟩ := n
  have hbelow : (children.reverse.flatMap preorder).length = (children.flatMap preorder).length :=
    ((List.reverse_perm children).flatMap_right preorder).length_eq
  simp only [ahead, hrest, List.flatMap_append, List.flatMap_singleton, preorder_mk,
    List.length_append, List.length_cons, List.dropLast_concat]
  split
  · exact Nat.lt_add_of_pos_right (Nat.succ_pos _)
  · simp only [Node.children, List.flatMap_append, List.length_append, hbelow]
    omega

/-- The spans that have been found when no node is left to be visited. -/
def run (source : List UInt8) (keep : String → Bool) (v : Visit) : List Span :=
  match _hnext : v.next? source keep with
  | none => v.found
  | some w => run source keep w
  termination_by v.ahead.length
  decreasing_by exact length_ahead_next? _hnext

end Visit

end CodeChallenges.Tree.Node

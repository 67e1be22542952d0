import CodeChallenges.Proofs.Tree.Nested
import CodeChallenges.Tree.Extent.Visit
/-!
# What a visit of a tree finds

A visit takes the nodes of a tree from a stack.  Whatever else is on the stack, the turns for a node
on top of it add the extents of that node and leave the rest of the stack as it was (`after?_node`).
So a visit ends after at most one turn for each node, and it finds what the recursion finds
(`run_start`).

What that is can be said without either of them.  With the nodes above it, each node of a tree has a
lineage.  It is outermost if it counts and nothing in its lineage does, and the spans that are found
are those of the outermost nodes, each once and in preorder (`map_outermost`).  In a nested tree they
come one after the other (`visit_finds_outermost`).
-/

namespace CodeChallenges.Tree.Node

/-! ## Nodes that count -/

/-- Whether a node counts: it is of a kind that is kept, and it is not empty. -/
def counts (keep : String → Bool) (n : Node) : Bool :=
  keep n.kind && decide (n.start < n.stop)

theorem span?_isSome_iff {source : List UInt8} {n : Node} :
    (n.span? source).isSome ↔ n.start < n.stop := by
  rw [span?]
  split
  · rename_i hlt
    exact iff_of_true rfl hlt
  · rename_i hempty
    exact iff_of_false Bool.false_ne_true hempty

/-- What is looked at in a node is its span if the node counts. -/
theorem keptSpan_eq (source : List UInt8) (keep : String → Bool) (n : Node) :
    (if keep n.kind then n.span? source else none) =
      if n.counts keep then n.span? source else none := by
  rw [counts]
  cases keep n.kind with
  | false => rfl
  | true =>
      rw [if_pos rfl, Bool.true_and]
      split
      · rfl
      · rename_i hempty
        exact Option.not_isSome_iff_eq_none.mp
          (mt span?_isSome_iff.mp fun hlt => hempty (decide_eq_true hlt))

theorem exists_span_of_counts {keep : String → Bool} {n : Node} (h : n.counts keep = true)
    (source : List UInt8) : ∃ s, n.span? source = some s := by
  rw [counts, Bool.and_eq_true] at h
  exact Option.isSome_iff_exists.mp (span?_isSome_iff.mpr (of_decide_eq_true h.2))

/-- The only extent of a node that counts is its own. -/
theorem extents_of_counts {source : List UInt8} {keep : String → Bool} {n : Node} {s : Span}
    (h : n.counts keep = true) (hs : n.span? source = some s) : n.extents source keep = [s] := by
  obtain ⟨label, children⟩ := n
  have hkept := (keptSpan_eq source keep (.mk label children)).trans ((if_pos h).trans hs)
  rw [extents]
  split
  · rename_i t ht
    rw [Option.some.inj (ht.symm.trans hkept)]
  · rename_i hnone
    cases hnone.symm.trans hkept

/-- The extents of a node that does not count are those of its children. -/
theorem extents_of_not_counts {source : List UInt8} {keep : String → Bool} {n : Node}
    (h : ¬ n.counts keep = true) :
    n.extents source keep = n.children.flatMap (extents source keep) := by
  obtain ⟨label, children⟩ := n
  have hkept := (keptSpan_eq source keep (.mk label children)).trans (if_neg h)
  rw [extents]
  split
  · rename_i s hs
    cases hs.symm.trans hkept
  · exact extentsAll_eq_flatMap source keep children

/-! ## The turns of a visit -/

namespace Visit

variable {source : List UInt8} {keep : String → Bool}

/-- The turn for a node that counts adds its span. -/
theorem next?_of_counts {n : Node} {s : Span} (h : n.counts keep = true)
    (hs : n.span? source = some s) (rest : List Node) (found : List Span) :
    next? source keep ⟨rest ++ [n], found⟩ = some ⟨rest, found ++ [s]⟩ := by
  simp only [next?, List.getLast?_concat, List.dropLast_concat, Option.map_some, keptSpan_eq,
    if_pos h, hs]

/-- The turn for a node that does not count puts its children on the stack, the first one on top. -/
theorem next?_of_not_counts {n : Node} (h : ¬ n.counts keep = true) (rest : List Node)
    (found : List Span) :
    next? source keep ⟨rest ++ [n], found⟩ = some ⟨rest ++ n.children.reverse, found⟩ := by
  simp only [next?, List.getLast?_concat, List.dropLast_concat, Option.map_some, keptSpan_eq,
    if_neg h]

theorem next?_eq_none_iff {v : Visit} : v.next? source keep = none ↔ v.stack = [] := by
  rw [next?, Option.map_eq_none_iff, List.getLast?_eq_none_iff]

theorem after?_succ_of_next? {v w : Visit} (h : v.next? source keep = some w) (turns : Nat) :
    v.after? source keep (turns + 1) = w.after? source keep turns := by
  rw [after?, h, Option.bind_some]

theorem after?_add {v w : Visit} {first : Nat} (h : v.after? source keep first = some w)
    (second : Nat) :
    v.after? source keep (first + second) = w.after? source keep second := by
  induction first generalizing v with
  | zero =>
      rw [Nat.zero_add, Option.some.inj h]
  | succ first ih =>
      obtain ⟨u, hu, h⟩ := Option.bind_eq_some_iff.mp h
      rw [Nat.succ_add, after?_succ_of_next? hu, ih h]

/-- The turns for nodes on top of the stack are those for each of them, if this can be said of each:
they add what is found in the node and leave the rest of the stack. -/
theorem after?_nodes {ns : List Node}
    (h : ∀ n ∈ ns, ∀ rest found, ∃ turns ≤ n.preorder.length,
      after? source keep turns ⟨rest ++ [n], found⟩ =
        some ⟨rest, found ++ n.extents source keep⟩) (rest : List Node) (found : List Span) :
    ∃ turns ≤ (ns.flatMap preorder).length,
      after? source keep turns ⟨rest ++ ns.reverse, found⟩ =
        some ⟨rest, found ++ ns.flatMap (extents source keep)⟩ := by
  induction ns generalizing found with
  | nil =>
      refine ⟨0, Nat.zero_le _, ?_⟩
      rw [List.reverse_nil, List.flatMap_nil, List.append_nil, List.append_nil, after?]
  | cons n ns ih =>
      obtain ⟨first, hfirst, hn⟩ := h n List.mem_cons_self (rest ++ ns.reverse) found
      obtain ⟨second, hsecond, hns⟩ :=
        ih (fun m hm => h m (List.mem_cons_of_mem n hm)) (found ++ n.extents source keep)
      refine ⟨first + second, ?_, ?_⟩
      · rw [List.flatMap_cons, List.length_append]
        exact Nat.add_le_add hfirst hsecond
      · rw [List.reverse_cons, ← List.append_assoc, after?_add hn, hns, List.flatMap_cons,
          List.append_assoc]

/-- **The turns for a node** on top of the stack, at most one for each node of its tree, add its
extents and leave the rest of the stack as it was. -/
theorem after?_node (n : Node) (rest : List Node) (found : List Span) :
    ∃ turns ≤ n.preorder.length,
      after? source keep turns ⟨rest ++ [n], found⟩ =
        some ⟨rest, found ++ n.extents source keep⟩ := by
  induction n using induct generalizing rest found with
  | mk label children ih =>
      by_cases hcounts : (Node.mk label children).counts keep = true
      · obtain ⟨s, hs⟩ := exists_span_of_counts hcounts source
        refine ⟨1, List.length_pos_of_mem (self_mem_preorder _), ?_⟩
        rw [after?_succ_of_next? (next?_of_counts hcounts hs rest found), after?,
          extents_of_counts hcounts hs]
      · obtain ⟨turns, hturns, hchildren⟩ := after?_nodes ih rest found
        refine ⟨turns + 1, ?_, ?_⟩
        · rw [preorder_mk, List.length_cons]
          exact Nat.succ_le_succ hturns
        · rw [after?_succ_of_next? (next?_of_not_counts hcounts rest found),
            extents_of_not_counts hcounts]
          exact hchildren

theorem run_eq_of_next? {v w : Visit} (h : v.next? source keep = some w) :
    v.run source keep = w.run source keep := by
  rw [run]
  split
  · rename_i hnone
    cases hnone.symm.trans h
  · rename_i u hu
    rw [Option.some.inj (hu.symm.trans h)]

/-- What a visit finds does not change with its turns. -/
theorem run_eq_of_after? {v w : Visit} {turns : Nat} (h : v.after? source keep turns = some w) :
    v.run source keep = w.run source keep := by
  induction turns generalizing v with
  | zero => rw [Option.some.inj h]
  | succ turns ih =>
      obtain ⟨u, hu, h⟩ := Option.bind_eq_some_iff.mp h
      rw [run_eq_of_next? hu, ih h]

theorem run_of_stack_eq_nil {v : Visit} (h : v.stack = []) : v.run source keep = v.found := by
  rw [run]
  split
  · rfl
  · rename_i w hw
    rw [next?_eq_none_iff.mpr h] at hw
    cases hw

/-- **A visit ends** after at most one turn for each node of the tree. -/
theorem after?_start (source : List UInt8) (keep : String → Bool) (root : Node) :
    ∃ turns ≤ root.preorder.length,
      after? source keep turns (start root) = some ⟨[], root.extents source keep⟩ :=
  after?_node root [] []

/-- **A visit finds the extents** of the tree, in the same order. -/
theorem run_start (source : List UInt8) (keep : String → Bool) (root : Node) :
    (start root).run source keep = root.extents source keep := by
  obtain ⟨turns, -, h⟩ := after?_start source keep root
  rw [run_eq_of_after? h, run_of_stack_eq_nil rfl]

end Visit

/-! ## Lineages -/

mutual

/-- The nodes of a tree in preorder, each with the nodes above it, the nearest first. -/
def lineages (above : List Node) : Node → List (List Node × Node)
  | .mk label children =>
    (above, .mk label children) :: lineagesAll (.mk label children :: above) children

/-- The nodes of several trees in a row, each with the nodes above it. -/
def lineagesAll (above : List Node) : List Node → List (List Node × Node)
  | [] => []
  | n :: ns => n.lineages above ++ lineagesAll above ns

end

theorem lineagesAll_eq_flatMap (above ns : List Node) :
    lineagesAll above ns = ns.flatMap (lineages above) := by
  induction ns with
  | nil => rw [lineagesAll, List.flatMap_nil]
  | cons n ns ih => rw [lineagesAll, ih, List.flatMap_cons]

theorem lineages_mk (above : List Node) (label : Label) (children : List Node) :
    (Node.mk label children).lineages above =
      (above, .mk label children) ::
        children.flatMap (lineages (.mk label children :: above)) := by
  rw [lineages, lineagesAll_eq_flatMap]

/-- Without the nodes above them, these are the nodes of the tree. -/
theorem map_snd_lineages (above : List Node) (n : Node) :
    (n.lineages above).map Prod.snd = n.preorder := by
  induction n using induct generalizing above with
  | mk label children ih =>
      rw [lineages_mk, preorder_mk, List.map_cons, List.map_flatMap]
      exact congrArg _ (List.flatMap_congr fun c hc => ih c hc _)

/-- The nodes above a node are those on the way to it from the root, the nearest first. -/
inductive Lineage (root : Node) : List Node → Node → Prop
  | root : Lineage root [] root
  | child {above : List Node} {n c : Node} :
      Lineage root above n → c ∈ n.children → Lineage root (n :: above) c

/-- With a node of a tree, its children have lineages too. -/
theorem mem_lineages_child {above below : List Node} {root n c : Node}
    (h : (below, n) ∈ root.lineages above) (hc : c ∈ n.children) :
    (n :: below, c) ∈ root.lineages above := by
  induction root using induct generalizing above with
  | mk label children ih =>
      rw [lineages_mk, List.mem_cons, List.mem_flatMap] at h ⊢
      rcases h with heq | ⟨d, hd, h⟩
      · cases heq
        obtain ⟨clabel, cchildren⟩ := c
        exact .inr ⟨_, hc, by rw [lineages_mk]; exact List.mem_cons_self⟩
      · exact .inr ⟨d, hd, ih d hd h⟩

theorem lineage_of_mem_lineages {root n : Node} {above : List Node} (h : root.Lineage above n)
    {l : List Node × Node} (hl : l ∈ n.lineages above) : root.Lineage l.1 l.2 := by
  induction n using induct generalizing above with
  | mk label children ih =>
      rw [lineages_mk, List.mem_cons, List.mem_flatMap] at hl
      rcases hl with rfl | ⟨c, hc, hl⟩
      · exact h
      · exact ih c hc (h.child hc) hl

/-- **The lineages of a tree** are the ways from the root to its nodes. -/
theorem mem_lineages_iff {root n : Node} {above : List Node} :
    (above, n) ∈ root.lineages [] ↔ root.Lineage above n := by
  constructor
  · exact lineage_of_mem_lineages .root
  · intro h
    induction h with
    | root =>
        obtain ⟨label, children⟩ := root
        rw [lineages_mk]
        exact List.mem_cons_self
    | child _ hc ih => exact mem_lineages_child ih hc

/-- Whether a node counts and none of the nodes above it does. -/
def isOutermost (keep : String → Bool) (lineage : List Node × Node) : Bool :=
  lineage.2.counts keep && lineage.1.all fun m => !m.counts keep

/-- The nodes that count while none above them does, in preorder. -/
def outermost (keep : String → Bool) (root : Node) : List Node :=
  ((root.lineages []).filter (isOutermost keep)).map Prod.snd

theorem outermost_sublist (keep : String → Bool) (root : Node) :
    (root.outermost keep).Sublist root.preorder := by
  rw [← map_snd_lineages [] root]
  exact List.filter_sublist.map Prod.snd

theorem isOutermost_iff {keep : String → Bool} {above : List Node} {n : Node} :
    isOutermost keep (above, n) = true ↔
      n.counts keep = true ∧ ∀ m ∈ above, ¬ m.counts keep = true := by
  simp only [isOutermost, Bool.and_eq_true, List.all_eq_true, Bool.not_eq_true', Bool.not_eq_true]

theorem mem_outermost_iff {keep : String → Bool} {root n : Node} :
    n ∈ root.outermost keep ↔
      n.counts keep = true ∧ ∃ above, root.Lineage above n ∧ ∀ m ∈ above, ¬ m.counts keep = true := by
  simp only [outermost, List.mem_map, List.mem_filter, Prod.exists, exists_eq_right,
    mem_lineages_iff, isOutermost_iff]
  exact ⟨fun ⟨above, hl, hn, ha⟩ => ⟨hn, above, hl, ha⟩,
    fun ⟨hn, above, hl, ha⟩ => ⟨above, hl, hn, ha⟩⟩

/-- Below a node that counts, no node is outermost. -/
theorem filter_lineages_of_counts {keep : String → Bool} {m : Node} {above : List Node}
    (hm : m ∈ above) (h : m.counts keep = true) (n : Node) :
    (n.lineages above).filter (isOutermost keep) = [] := by
  induction n using induct generalizing above with
  | mk label children ih =>
      have hroot : ¬ isOutermost keep (above, .mk label children) = true :=
        fun hout => (isOutermost_iff.mp hout).2 m hm h
      rw [lineages_mk, List.filter_cons_of_neg hroot, List.filter_flatMap, List.flatMap_eq_nil_iff]
      exact fun c hc => ih c hc (List.mem_cons_of_mem _ hm)

/-- The outermost nodes of a tree whose lineage does not count have the extents of the tree as their
spans. -/
theorem map_filter_lineages {source : List UInt8} {keep : String → Bool} {above : List Node}
    (habove : ∀ m ∈ above, ¬ m.counts keep = true) (n : Node) :
    ((n.lineages above).filter (isOutermost keep)).map (fun l => l.2.span? source) =
      (n.extents source keep).map some := by
  induction n using induct generalizing above with
  | mk label children ih =>
      rw [lineages_mk]
      by_cases hcounts : (Node.mk label children).counts keep = true
      · obtain ⟨s, hs⟩ := exists_span_of_counts hcounts source
        have hbelow : (children.flatMap (lineages (.mk label children :: above))).filter
            (isOutermost keep) = [] := by
          rw [List.filter_flatMap, List.flatMap_eq_nil_iff]
          exact fun c _ => filter_lineages_of_counts List.mem_cons_self hcounts c
        rw [List.filter_cons_of_pos (isOutermost_iff.mpr ⟨hcounts, habove⟩), hbelow,
          extents_of_counts hcounts hs, List.map_singleton, List.map_singleton, hs]
      · have hbelow : ∀ m ∈ Node.mk label children :: above, ¬ m.counts keep = true :=
          List.forall_mem_cons.mpr ⟨hcounts, habove⟩
        rw [List.filter_cons_of_neg (fun hout => hcounts (isOutermost_iff.mp hout).1),
          extents_of_not_counts hcounts, List.filter_flatMap, List.map_flatMap, List.map_flatMap]
        exact List.flatMap_congr fun c hc => ih c hc hbelow

/-- **The extents are the spans of the outermost nodes**, one for each and in their order. -/
theorem map_outermost (source : List UInt8) (keep : String → Bool) (root : Node) :
    (root.outermost keep).map (span? source) = (root.extents source keep).map some := by
  rw [outermost, List.map_map]
  exact map_filter_lineages (fun _ hm => absurd hm List.not_mem_nil) root

/-! ## Nested trees -/

/-- **What a visit finds in a nested tree**: after at most one turn for each node, nothing is left to
be visited.  The spans that are found by then are those of the outermost nodes, one for each and in
preorder, and no two of them overlap.  Sorting does not move them, so the comments and the imports are
what the visits for their kinds find. -/
theorem visit_finds_outermost {source : List UInt8} {root : Node} (h : root.Nested) :
    (∀ keep : String → Bool, ∃ turns ≤ root.preorder.length, ∃ spans,
      (Visit.start root).after? source keep turns = some ⟨[], spans⟩ ∧
      (Visit.start root).run source keep = spans ∧
      root.extents source keep = spans ∧
      (root.outermost keep).map (span? source) = spans.map some ∧
      (root.outermost keep).Sublist root.preorder ∧
      spans.Pairwise (fun s t => s.stop ≤ t.start) ∧
      (∀ s ∈ spans, s.start < s.stop) ∧
      Span.sorted spans = spans) ∧
    ∀ l : Language,
      root.comments source l = (Visit.start root).run source l.isComment ∧
      root.imports source l = (Visit.start root).run source l.isImport := by
  constructor
  · intro keep
    obtain ⟨turns, hturns, hafter⟩ := Visit.after?_start source keep root
    refine ⟨turns, hturns, _, hafter, Visit.run_start source keep root, rfl,
      map_outermost source keep root, outermost_sublist keep root, extents_ascending h, ?_,
      sorted_extents h⟩
    intro s hs
    obtain ⟨n, -, hn⟩ := exists_of_mem_extents hs
    obtain ⟨hstart, hstop, hlt⟩ := span?_eq_some hn
    rw [hstart, hstop]
    exact hlt
  · intro l
    rw [Visit.run_start, Visit.run_start]
    exact ⟨sorted_extents h, sorted_extents h⟩

/-- A file with a comment, in which the mark of the comment is a node too, and with a block of an empty
comment and another one. -/
def commentedTree : Node :=
  let node (id : Nat) (kind : String) (start stop : Nat) :=
    Node.mk ⟨id, kind, start, stop, true, false, none⟩
  node 0 "file" 0 9 [
    node 1 "comment" 0 4 [node 2 "comment" 0 1 []],
    node 3 "block" 5 9 [node 4 "comment" 5 5 [], node 5 "comment" 6 8 []]]

theorem commentedTree_nested : commentedTree.Nested := by
  refine .mk (by decide) (by decide) (by decide) (List.forall_mem_cons.mpr ⟨?_, ?_⟩)
  · refine .mk (by decide) (by decide) (by decide) ?_
    exact List.forall_mem_singleton.mpr (.leaf (by decide))
  · refine List.forall_mem_singleton.mpr (.mk (by decide) (by decide) (by decide) ?_)
    exact List.forall_mem_cons.mpr
      ⟨.leaf (by decide), List.forall_mem_singleton.mpr (.leaf (by decide))⟩

/-- Of its four comments, a visit finds the first and the last. -/
theorem visit_finds_outermost_sample :
    commentedTree.Nested ∧
    ((Visit.start commentedTree).run [] (· == "comment")).map Span.range = [(0, 4), (6, 8)] := by
  obtain ⟨_, -, spans, -, hrun, hextents, -⟩ :=
    (visit_finds_outermost commentedTree_nested).1 (· == "comment")
  refine ⟨commentedTree_nested, ?_⟩
  rw [hrun, ← hextents]
  decide

end CodeChallenges.Tree.Node

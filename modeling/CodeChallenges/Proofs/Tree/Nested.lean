import CodeChallenges.Proofs.Sorting
import CodeChallenges.Proofs.Text.Utf8
import CodeChallenges.Tree.Extent
/-!
# Nested trees

In a nested tree each child lies inside its parent and siblings come one after the other.  By
induction on the tree, any two nodes of it are then disjoint or one lies inside the other
(`Nested.laminar`), and the outermost nodes of some kinds, which the extents are, come one after
the other (`extents_ascending`).  The search for a byte range goes down to a node that still holds
whatever lies inside the range (`Nested.filter_preorder_covering`).

A tree is well-formed over a source if it is nested and its nodes begin and end between characters
of the source.
-/

namespace CodeChallenges.Tree.Node

/-! ## Nodes of a tree -/

/-- Induction on a tree: what passes from all children to their parent holds of every node. -/
@[elab_as_elim]
theorem induct {motive : Node → Prop}
    (mk : ∀ label children, (∀ c ∈ children, motive c) → motive (.mk label children)) :
    ∀ n, motive n
  | .mk label children => mk label children fun c _ => induct mk c

theorem self_mem_preorder (n : Node) : n ∈ n.preorder := by
  cases n with
  | mk label children =>
      rw [preorder_mk]
      exact List.mem_cons_self

theorem mem_preorder_mk {label : Label} {children : List Node} {n : Node} :
    n ∈ (Node.mk label children).preorder ↔
      n = .mk label children ∨ ∃ c ∈ children, n ∈ c.preorder := by
  rw [preorder_mk, List.mem_cons, List.mem_flatMap]

/-- The nodes of a subtree are nodes of the tree. -/
theorem preorder_trans {root m n : Node} (hm : m ∈ root.preorder) (hn : n ∈ m.preorder) :
    n ∈ root.preorder := by
  induction root using induct with
  | mk label children ih =>
      rcases mem_preorder_mk.mp hm with rfl | ⟨c, hc, hmc⟩
      · exact hn
      · exact mem_preorder_mk.mpr (.inr ⟨c, hc, ih c hc hmc⟩)

/-- A search among children stays at their parent, or it goes on in a child that holds the range. -/
theorem coveringIn_cases (start stop : Nat) (current : Node) (ns : List Node) :
    coveringIn start stop current ns = current ∨
      ∃ before c after, ns = before ++ c :: after ∧ c.start ≤ start ∧ stop ≤ c.stop ∧
        coveringIn start stop current ns = c.covering start stop := by
  induction ns with
  | nil => exact .inl (by rw [coveringIn])
  | cons n ns ih =>
      rw [coveringIn]
      split
      · rcases ih with h | ⟨before, c, after, rfl, h⟩
        · exact .inl h
        · exact .inr ⟨n :: before, c, after, rfl, h⟩
      · rename_i hends
        simp only [endsBefore, Bool.or_eq_true, decide_eq_true_eq, not_or, Nat.not_lt] at hends
        split
        · exact .inl rfl
        · rename_i hstart
          exact .inr ⟨[], n, ns, rfl, Nat.le_of_not_lt hstart, hends.1, rfl⟩

/-- The node that a search reaches is a node of the tree. -/
theorem covering_mem_preorder (start stop : Nat) (n : Node) :
    n.covering start stop ∈ n.preorder := by
  induction n using induct with
  | mk label children ih =>
      rw [covering]
      rcases coveringIn_cases start stop (.mk label children) children with
        h | ⟨before, c, after, hsplit, -, -, h⟩
      · rw [h]
        exact self_mem_preorder _
      · have hc : c ∈ children := by
          rw [hsplit]
          exact List.mem_append_right before List.mem_cons_self
        rw [h]
        exact mem_preorder_mk.mpr (.inr ⟨c, hc, ih c hc⟩)

/-- Within words, a look-up is the search. -/
theorem covering?_eq_some (root : Node) {start stop : Nat} (hle : start ≤ stop)
    (hstop : stop < offsetModulus) : root.covering? start stop = some (root.covering start stop) := by
  simp only [covering?]
  rw [Nat.mod_eq_of_lt hstop, Nat.mod_eq_of_lt (Nat.lt_of_le_of_lt hle hstop),
    if_neg (Nat.not_lt_of_le hle)]

theorem covering?_mem_preorder {root scope : Node} {start stop : Nat}
    (h : root.covering? start stop = some scope) : scope ∈ root.preorder := by
  simp only [covering?] at h
  split at h
  · cases h
  · cases h
    exact covering_mem_preorder _ _ root

/-! ## Nested trees -/

/-- Each child lies inside its parent, and siblings come one after the other. -/
inductive Nested : Node → Prop
  | mk {label : Label} {children : List Node} :
      label.start ≤ label.stop →
      (∀ c ∈ children, label.start ≤ c.start ∧ c.stop ≤ label.stop) →
      children.Pairwise (fun a b => a.stop ≤ b.start) →
      (∀ c ∈ children, Nested c) → Nested (.mk label children)

theorem Nested.leaf {label : Label} (h : label.start ≤ label.stop) : (Node.mk label []).Nested :=
  .mk h (List.forall_mem_nil _) .nil (List.forall_mem_nil _)

/-- Well-formed trees of a source. -/
structure WellFormed (source : List UInt8) (root : Node) : Prop where
  nested : root.Nested
  start_boundary : ∀ n ∈ root.preorder, Text.Utf8.IsBoundary source n.start
  stop_boundary : ∀ n ∈ root.preorder, Text.Utf8.IsBoundary source n.stop

/-- Every node of the tree is a range of the source between two characters, however the nodes lie to
one another. -/
structure OnBoundaries (source : List UInt8) (root : Node) : Prop where
  start_le_stop : ∀ n ∈ root.preorder, n.start ≤ n.stop
  start_boundary : ∀ n ∈ root.preorder, Text.Utf8.IsBoundary source n.start
  stop_boundary : ∀ n ∈ root.preorder, Text.Utf8.IsBoundary source n.stop

/-- The trees below the nodes of such a tree are such trees. -/
theorem OnBoundaries.of_mem_preorder {source : List UInt8} {root n : Node}
    (h : root.OnBoundaries source) (hn : n ∈ root.preorder) : n.OnBoundaries source where
  start_le_stop := fun m hm => h.start_le_stop m (preorder_trans hn hm)
  start_boundary := fun m hm => h.start_boundary m (preorder_trans hn hm)
  stop_boundary := fun m hm => h.stop_boundary m (preorder_trans hn hm)

theorem OnBoundaries.stop_le {source : List UInt8} {root n : Node} (h : root.OnBoundaries source)
    (hn : n ∈ root.preorder) : n.stop ≤ source.length :=
  (h.stop_boundary n hn).le_length

theorem Nested.start_le_stop {n : Node} (h : n.Nested) : n.start ≤ n.stop := by
  cases h with
  | mk hle _ _ _ => exact hle

theorem Nested.of_mem_preorder {root n : Node} (h : root.Nested) (hn : n ∈ root.preorder) :
    n.Nested := by
  induction h with
  | mk hle hin hord hbelow ih =>
      rcases mem_preorder_mk.mp hn with rfl | ⟨c, hc, hnc⟩
      · exact .mk hle hin hord hbelow
      · exact ih c hc hnc

/-- Every node of the tree is a range of a source of this length. -/
def Within (length : Nat) (root : Node) : Prop :=
  ∀ n ∈ root.preorder, n.start ≤ n.stop ∧ n.stop ≤ length

theorem OnBoundaries.within {source : List UInt8} {root : Node} (h : root.OnBoundaries source) :
    root.Within source.length :=
  fun n hn => ⟨h.start_le_stop n hn, h.stop_le hn⟩

/-- The nodes of a well-formed tree are ranges between two characters. -/
theorem WellFormed.onBoundaries {source : List UInt8} {root : Node} (h : root.WellFormed source) :
    root.OnBoundaries source where
  start_le_stop := fun _ hn => (h.nested.of_mem_preorder hn).start_le_stop
  start_boundary := h.start_boundary
  stop_boundary := h.stop_boundary

/-- Every node lies inside the root. -/
theorem Nested.inside {root n : Node} (h : root.Nested) (hn : n ∈ root.preorder) :
    root.start ≤ n.start ∧ n.stop ≤ root.stop := by
  induction h with
  | mk _ hin _ _ ih =>
      rcases mem_preorder_mk.mp hn with rfl | ⟨c, hc, hnc⟩
      · exact ⟨Nat.le_refl _, Nat.le_refl _⟩
      · exact ⟨Nat.le_trans (hin c hc).1 (ih c hc hnc).1, Nat.le_trans (ih c hc hnc).2 (hin c hc).2⟩

/-- The nodes of a nested tree are ranges of a source that its root is a range of. -/
theorem Nested.within {root : Node} {length : Nat} (h : root.Nested) (hstop : root.stop ≤ length) :
    root.Within length :=
  fun _ hn => ⟨(h.of_mem_preorder hn).start_le_stop, Nat.le_trans (h.inside hn).2 hstop⟩

/-- One node lies inside the other, or it ends before the other starts. -/
def Apart (m n : Node) : Prop :=
  (m.start ≤ n.start ∧ n.stop ≤ m.stop) ∨ m.stop ≤ n.start

/-- **Any two nodes of a nested tree** are disjoint, or one lies inside the other. -/
theorem Nested.laminar {root m n : Node} (h : root.Nested) (hm : m ∈ root.preorder)
    (hn : n ∈ root.preorder) : Apart m n ∨ Apart n m := by
  induction h with
  | @mk label children hle hin hord hbelow ih =>
      have hroot : (Node.mk label children).Nested := .mk hle hin hord hbelow
      rcases mem_preorder_mk.mp hm with rfl | ⟨c, hc, hmc⟩
      · exact .inl (.inl (hroot.inside hn))
      rcases mem_preorder_mk.mp hn with rfl | ⟨d, hd, hnd⟩
      · exact .inr (.inl (hroot.inside hm))
      -- Two children are one child, or one of them comes first with all that is below it.
      have hcd : c = d ∨ c.stop ≤ d.start ∨ d.stop ≤ c.start := eq_or_of_pairwise hord hc hd
      have hmin := (hbelow c hc).inside hmc
      have hnin := (hbelow d hd).inside hnd
      rcases hcd with rfl | hlt | hlt
      · exact ih c hc hmc hnd
      · exact .inl (.inr (Nat.le_trans hmin.2 (Nat.le_trans hlt hnin.1)))
      · exact .inr (.inr (Nat.le_trans hnin.2 (Nat.le_trans hlt hmin.1)))

/-- **The search for a range** loses no node inside the range that has bytes, unless the node is the
range itself. -/
theorem Nested.filter_preorder_covering {root : Node} (h : root.Nested) {start stop : Nat}
    {p : Node → Bool} (hp : ∀ n ∈ root.preorder, p n = true →
      start ≤ n.start ∧ n.start < n.stop ∧ n.stop ≤ stop ∧ ¬ (n.start = start ∧ n.stop = stop)) :
    (root.covering start stop).preorder.filter p = root.preorder.filter p := by
  induction h with
  | @mk label children hle hin hord hbelow ih =>
      rw [covering]
      rcases coveringIn_cases start stop (.mk label children) children with
        h | ⟨before, c, after, rfl, hstart, hstop, h⟩
      · rw [h]
      have hc : c ∈ before ++ c :: after := List.mem_append_right before List.mem_cons_self
      have hbetween := List.pairwise_append.mp hord
      have hafter := List.pairwise_cons.mp hbetween.2.1
      -- What is not below this child lies around it, and so does not lie inside the range.
      have hroot : ¬ p (.mk label (before ++ c :: after)) = true := by
        intro hself
        obtain ⟨h1, -, h2, h3⟩ := hp _ (self_mem_preorder _) hself
        have hcin := hin c hc
        simp only [Node.start, Node.stop, Node.label] at h1 h2 h3 hcin hstart hstop
        omega
      have haround : ∀ ds ⊆ before ++ c :: after,
          (∀ d ∈ ds, d.stop ≤ c.start ∨ c.stop ≤ d.start) → (ds.flatMap preorder).filter p = [] := by
        intro ds hds hapart
        rw [List.filter_eq_nil_iff]
        intro n hn hpn
        obtain ⟨d, hd, hnd⟩ := List.mem_flatMap.mp hn
        have hinside := (hbelow d (hds hd)).inside hnd
        obtain ⟨h1, h2, h3, -⟩ := hp n (mem_preorder_mk.mpr (.inr ⟨d, hds hd, hnd⟩)) hpn
        have hsides := hapart d hd
        omega
      rw [h, ih c hc fun n hn => hp n (mem_preorder_mk.mpr (.inr ⟨c, hc, hn⟩)), preorder_mk,
        List.filter_cons_of_neg hroot, List.flatMap_append, List.flatMap_cons, List.filter_append,
        List.filter_append,
        haround before (List.subset_append_left _ _) fun d hd =>
          .inl (hbetween.2.2 d hd c List.mem_cons_self),
        haround after (fun d hd => List.mem_append_right _ (List.mem_cons_of_mem c hd)) fun d hd =>
          .inr (hafter.1 d hd),
        List.nil_append, List.append_nil]

/-! ## Extents -/

theorem span?_eq_some {source : List UInt8} {n : Node} {s : Span}
    (h : n.span? source = some s) : s.start = n.start ∧ s.stop = n.stop ∧ n.start < n.stop := by
  unfold span? at h
  split at h
  · rename_i hlt
    cases h
    exact ⟨rfl, rfl, hlt⟩
  · cases h

theorem extentsAll_eq_flatMap (source : List UInt8) (keep : String → Bool) (ns : List Node) :
    extentsAll source keep ns = ns.flatMap (extents source keep) := by
  induction ns with
  | nil => rw [extentsAll, List.flatMap_nil]
  | cons n ns ih => rw [extentsAll, ih, List.flatMap_cons]

/-- The extents in a tree are those of its children, unless the root itself is kept. -/
theorem extents_mk (source : List UInt8) (keep : String → Bool) (label : Label)
    (children : List Node) :
    (∃ s, (Node.mk label children).span? source = some s ∧
        (Node.mk label children).extents source keep = [s]) ∨
      (Node.mk label children).extents source keep = children.flatMap (extents source keep) := by
  rw [extents]
  split
  · rename_i s h
    split at h
    · exact .inl ⟨s, h, rfl⟩
    · cases h
  · exact .inr (extentsAll_eq_flatMap source keep children)

/-- Every extent is the span of a node that is not empty. -/
theorem exists_of_mem_extents {source : List UInt8} {keep : String → Bool} {root : Node} {s : Span}
    (h : s ∈ root.extents source keep) : ∃ n ∈ root.preorder, n.span? source = some s := by
  induction root using induct with
  | mk label children ih =>
      rcases extents_mk source keep label children with ⟨t, ht, heq⟩ | heq
      · rw [heq, List.mem_singleton] at h
        exact ⟨_, self_mem_preorder _, h ▸ ht⟩
      · rw [heq] at h
        obtain ⟨c, hc, hs⟩ := List.mem_flatMap.mp h
        obtain ⟨n, hn, hsp⟩ := ih c hc hs
        exact ⟨n, mem_preorder_mk.mpr (.inr ⟨c, hc, hn⟩), hsp⟩

/-- The same holds of the extents in the order of the file. -/
theorem exists_of_mem_sorted_extents {source : List UInt8} {keep : String → Bool} {root : Node}
    {s : Span} (h : s ∈ Span.sorted (root.extents source keep)) :
    ∃ n ∈ root.preorder, n.span? source = some s :=
  exists_of_mem_extents (List.mem_mergeSort.mp h)

/-- In a nested tree the extents come one after the other. -/
theorem extents_ascending {source : List UInt8} {keep : String → Bool} {root : Node}
    (h : root.Nested) :
    (root.extents source keep).Pairwise (fun s t => s.stop ≤ t.start) := by
  induction h with
  | @mk label children _ _ hord hbelow ih =>
      rcases extents_mk source keep label children with ⟨s, _, heq⟩ | heq
      · rw [heq]
        exact List.pairwise_singleton _ _
      · rw [heq, List.pairwise_flatMap]
        refine ⟨ih, hord.imp_of_mem fun {a b} ha hb hab s hs t ht => ?_⟩
        obtain ⟨m, hm, hsm⟩ := exists_of_mem_extents hs
        obtain ⟨n, hn, htn⟩ := exists_of_mem_extents ht
        rw [(span?_eq_some hsm).2.1, (span?_eq_some htn).1]
        exact Nat.le_trans ((hbelow a ha).inside hm).2
          (Nat.le_trans hab ((hbelow b hb).inside hn).1)

/-- Sorting changes nothing about the extents of a nested tree. -/
theorem sorted_extents {source : List UInt8} {keep : String → Bool} {root : Node}
    (h : root.Nested) : Span.sorted (root.extents source keep) = root.extents source keep := by
  refine List.mergeSort_of_pairwise ((extents_ascending h).imp_of_mem fun {s t} hs _ hst => ?_)
  obtain ⟨n, -, hn⟩ := exists_of_mem_extents hs
  obtain ⟨hstart, hstop, hlt⟩ := span?_eq_some hn
  simp only [Span.le, Bool.or_eq_true, decide_eq_true_eq]
  left
  omega

end CodeChallenges.Tree.Node

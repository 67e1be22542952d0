import CodeChallenges.Proofs.Tree.Capture
import CodeChallenges.Tree.Pattern.Reader
/-!
# Patterns without conditions

A rule without conditions keeps every match of its pattern, so its query cannot fail, and it finds the
matches at the nodes of the tree in preorder (`queryOf_plain`).  What a pattern with one child matches
is said by what the child matches (`mem_matchesAt_singleton`).  Texts are read token by token
(`rulesOf?_of_tokens`).
-/

namespace CodeChallenges.Tree

/-! ## Matches -/

/-- A node of a kind, with a name of its own. -/
def Node.IsOfKind (kind : String) (n : Node) : Prop :=
  n.label.named = true ∧ n.kind = kind

theorem NodeTest.accepts_ofKind_iff {kind : String} {n : Node} :
    (NodeTest.ofKind kind).accepts n = true ↔ n.IsOfKind kind := by
  rw [accepts, Bool.and_eq_true, beq_iff_eq, Node.IsOfKind]

namespace Pattern

/-- Of several siblings each can be chosen once. -/
theorem map_fst_choices (siblings : List Node) :
    (choices false siblings).map Prod.fst = siblings := by
  induction siblings with
  | nil => rfl
  | cons n ns ih => rw [choices, Bool.false_and, if_neg Bool.false_ne_true, List.map_cons, ih]

/-- One pattern for siblings matches at any of them. -/
theorem matchesAmong_singleton {p : Pattern} (hp : p.isAdjacent = false) (siblings : List Node) :
    matchesAmong [p] siblings = siblings.flatMap p.matchesAt := by
  have hhere : ∀ n : Node, ((p.matchesAt n).flatMap fun here => [here ++ []]) = p.matchesAt n := by
    intro n
    simp only [List.append_nil, List.flatMap_singleton']
  simp only [matchesAmong, hp, List.map_singleton, hhere]
  rw [← List.flatMap_map Prod.fst p.matchesAt, map_fst_choices]

/-- A pattern with one child names its node, and below it what the child names. -/
theorem mem_matchesAt_singleton {kind : String} {names : List String} {p : Pattern}
    (hp : p.isAdjacent = false) {n : Node} {captures : List Capture} :
    captures ∈ (Pattern.node (.ofKind kind) names [p]).matchesAt n ↔
      n.IsOfKind kind ∧ ∃ c ∈ n.children, ∃ below ∈ p.matchesAt c,
        captures = names.map (Capture.mk · n) ++ below := by
  rw [matchesAt]
  split
  · rename_i haccepts
    rw [and_iff_right (NodeTest.accepts_ofKind_iff.mp haccepts), List.mem_map]
    constructor
    · rintro ⟨below, hbelow, rfl⟩
      rw [matchesAmong_singleton hp] at hbelow
      obtain ⟨c, hc, hbelow⟩ := List.mem_flatMap.mp hbelow
      exact ⟨c, hc, below, hbelow, rfl⟩
    · rintro ⟨c, hc, below, hbelow, rfl⟩
      refine ⟨below, ?_, rfl⟩
      rw [matchesAmong_singleton hp]
      exact List.mem_flatMap.mpr ⟨c, hc, hbelow⟩
  · rename_i hrefuses
    exact iff_of_false List.not_mem_nil fun h =>
      hrefuses (NodeTest.accepts_ofKind_iff.mpr h.1)

theorem mem_matchesAt_leaf {kind : String} {names : List String} {n : Node}
    {captures : List Capture} :
    captures ∈ (Pattern.node (.ofKind kind) names []).matchesAt n ↔
      n.IsOfKind kind ∧ captures = names.map (Capture.mk · n) := by
  rw [matchesAt, matchesAmong, List.map_singleton, List.append_nil]
  split
  · rename_i haccepts
    rw [and_iff_right (NodeTest.accepts_ofKind_iff.mp haccepts), List.mem_singleton]
  · rename_i hrefuses
    exact iff_of_false List.not_mem_nil fun h =>
      hrefuses (NodeTest.accepts_ofKind_iff.mpr h.1)

theorem mem_matchesAt_inField {field : String} {p : Pattern} {n : Node} {captures : List Capture} :
    captures ∈ (Pattern.inField field p).matchesAt n ↔
      n.label.field = some field ∧ captures ∈ p.matchesAt n := by
  rw [matchesAt]
  split
  · rename_i hfield
    rw [and_iff_right (beq_iff_eq.mp hfield)]
  · rename_i hother
    exact iff_of_false List.not_mem_nil fun h => hother (beq_iff_eq.mpr h.1)

end Pattern

/-! ## Queries -/

/-- A rule without conditions keeps every match of its pattern. -/
theorem Rule.matchesAt_plain (p : Pattern) (source : List UInt8) (n : Node) :
    (Rule.mk p []).matchesAt source n = .ok (p.matchesAt n) :=
  filterM_true _

/-- Its query finds the matches at the nodes of the tree in preorder. -/
theorem queryOf_plain (p : Pattern) (source : List UInt8) (root : Node) :
    queryOf [⟨p, []⟩] source root = .ok (root.preorder.flatMap p.matchesAt) := by
  have hrules : (fun n => [Rule.mk p []].mapM (·.matchesAt source n)) = fun n =>
      .ok [p.matchesAt n] := by
    funext n
    rw [List.mapM_cons, Rule.matchesAt_plain]
    rfl
  have hflat : ∀ ns : List Node,
      (ns.map fun n => [p.matchesAt n]).flatten.flatten = ns.flatMap p.matchesAt := by
    intro ns
    rw [← List.flatMap_def, ← List.map_eq_flatMap, ← List.flatMap_def]
  rw [queryOf, hrules, ← hflat]
  exact bind_eq_ok_iff.mpr ⟨_, List.mapM_pure, rfl⟩

/-! ## Texts -/

/-- A text writes the rules that are read from its tokens. -/
theorem Pattern.rulesOf?_of_tokens {cs : List Char} (ts : List Token) {rules : List Rule}
    (htokens : tokensFrom cs.length cs = some ts) (hrules : readRules ts.length ts = some rules) :
    rulesOf? (String.ofList cs) = some rules := by
  rw [rulesOf?, tokens, String.toList_ofList, htokens]
  exact hrules

end CodeChallenges.Tree

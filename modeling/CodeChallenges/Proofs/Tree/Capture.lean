import CodeChallenges.Proofs.Outcome
import CodeChallenges.Proofs.Tree.Nested
import CodeChallenges.Tree.Pattern
import Mathlib.Data.List.Induction
/-!
# Captured nodes

A pattern that matches a node names only nodes of the tree below it, by induction on the pattern
(`Pattern.matchesAt_local`).  So a query never names a node outside the tree that it is run on
(`queryOf_local`), and putting captures into groups adds no node (`exists_of_mem_groupCaptures`).
The conditions of a query can be checked wherever nodes begin and end between characters
(`queryOf_answers`).
-/

namespace CodeChallenges.Tree

/-- Every named node of every match is a node of one of the given trees. -/
def NamesWithin (found : List (List Capture)) (ns : List Node) : Prop :=
  ∀ captures ∈ found, ∀ c ∈ captures, ∃ n ∈ ns, c.node ∈ n.preorder

namespace Pattern

/-- A choice among siblings leaves only siblings after it. -/
theorem mem_of_mem_choices {adjacent : Bool} {siblings : List Node} {choice : Node × List Node}
    (h : choice ∈ choices adjacent siblings) : choice.1 ∈ siblings ∧ choice.2 ⊆ siblings := by
  induction siblings with
  | nil => simp [choices] at h
  | cons n ns ih =>
      rw [choices] at h
      rcases List.mem_cons.mp h with rfl | h
      · exact ⟨List.mem_cons_self, List.subset_cons_self n ns⟩
      · split at h
        · cases h
        · obtain ⟨hmem, hsub⟩ := ih h
          exact ⟨List.mem_cons_of_mem _ hmem, fun x hx => List.mem_cons_of_mem _ (hsub hx)⟩

mutual

/-- A match at a node names nodes of the tree below it. -/
theorem matchesAt_local (p : Pattern) (n : Node) : NamesWithin (p.matchesAt n) [n] := by
  match p with
  | .node test names children =>
      intro captures hcap c hc
      rw [matchesAt] at hcap
      split at hcap
      · obtain ⟨below, hbelow, rfl⟩ := List.mem_map.mp hcap
        rcases List.mem_append.mp hc with hc | hc
        · obtain ⟨name, -, rfl⟩ := List.mem_map.mp hc
          exact ⟨n, List.mem_singleton_self n, n.self_mem_preorder⟩
        · obtain ⟨m, hm, hcm⟩ := matchesAmong_local children n.children below hbelow c hc
          cases n with
          | mk label children =>
              exact ⟨_, List.mem_singleton_self _, Node.mem_preorder_mk.mpr (.inr ⟨m, hm, hcm⟩)⟩
      · cases hcap
  | .oneOf alternatives =>
      rw [matchesAt]
      exact matchesOne_local alternatives n
  | .inField field pattern =>
      rw [matchesAt]
      split
      · exact matchesAt_local pattern n
      · exact fun _ h => absurd h List.not_mem_nil
  | .adjacent pattern =>
      rw [matchesAt]
      exact matchesAt_local pattern n

theorem matchesOne_local (ps : List Pattern) (n : Node) : NamesWithin (matchesOne ps n) [n] := by
  match ps with
  | [] => exact fun _ h => absurd h (by simp [matchesOne])
  | p :: ps =>
      intro captures hcap
      rw [matchesOne] at hcap
      rcases List.mem_append.mp hcap with hcap | hcap
      · exact matchesAt_local p n captures hcap
      · exact matchesOne_local ps n captures hcap

/-- A match of patterns among siblings names nodes of the trees below the siblings. -/
theorem matchesAmong_local (ps : List Pattern) (siblings : List Node) :
    NamesWithin (matchesAmong ps siblings) siblings := by
  match ps with
  | [] =>
      intro captures hcap c hc
      rw [matchesAmong, List.mem_singleton] at hcap
      subst hcap
      cases hc
  | p :: ps =>
      intro captures hcap c hc
      rw [matchesAmong] at hcap
      obtain ⟨choice, hchoice, hcap⟩ := List.mem_flatMap.mp hcap
      obtain ⟨here, hhere, hcap⟩ := List.mem_flatMap.mp hcap
      obtain ⟨later, hlater, rfl⟩ := List.mem_map.mp hcap
      obtain ⟨hmem, hsub⟩ := mem_of_mem_choices hchoice
      rcases List.mem_append.mp hc with hc | hc
      · obtain ⟨m, hm, hcm⟩ := matchesAt_local p choice.1 here hhere c hc
        rw [List.mem_singleton.mp hm] at hcm
        exact ⟨choice.1, hmem, hcm⟩
      · obtain ⟨m, hm, hcm⟩ := matchesAmong_local ps choice.2 later hlater c hc
        exact ⟨m, hsub hm, hcm⟩

end

end Pattern

/-! ## Queries -/

/-- The matches that a rule keeps are matches of its pattern. -/
theorem Rule.matchesAt_subset {rule : Rule} {source : List UInt8} {n : Node}
    {found : List (List Capture)} (h : rule.matchesAt source n = .ok found) :
    found ⊆ rule.pattern.matchesAt n :=
  fun _ hc => mem_of_mem_filterM h hc

/-- The nodes that a query names lie in the tree that it is run on. -/
def Query.Local (query : Query) : Prop :=
  ∀ root found, query root = .ok found →
    ∀ captures ∈ found, ∀ c ∈ captures, c.node ∈ root.preorder

/-- A query of rules is local. -/
theorem queryOf_local (rules : List Rule) (source : List UInt8) :
    Query.Local (queryOf rules source) := by
  intro root found h captures hcap c hc
  obtain ⟨found', hfound', h⟩ := bind_eq_ok_iff.mp h
  rw [← pure_eq_ok_iff.mp h, List.mem_flatten] at hcap
  obtain ⟨ofRule, hofRule, hcap⟩ := hcap
  obtain ⟨ofNode, hofNode, hofRule⟩ := List.mem_flatten.mp hofRule
  obtain ⟨n, hn, hrules⟩ := exists_of_mem_mapM hfound' hofNode
  obtain ⟨rule, -, hrule⟩ := exists_of_mem_mapM hrules hofRule
  obtain ⟨m, hm, hcm⟩ :=
    rule.pattern.matchesAt_local n captures (rule.matchesAt_subset hrule hcap) c hc
  rw [List.mem_singleton.mp hm] at hcm
  exact Node.preorder_trans hn hcm

/-! ### Queries on trees between characters -/

/-- A condition can be checked if the bytes of every named node are a text. -/
theorem Condition.exists_holds_eq_ok (condition : Condition) {source : List UInt8}
    {captures : List Capture}
    (h : ∀ c ∈ captures, ∃ cs, Text.Utf8.decode (slice source c.node.start c.node.stop) = .ok cs) :
    ∃ b, condition.holds source captures = .ok b := by
  refine exists_allM_eq_ok fun c hc => ?_
  obtain ⟨cs, hcs⟩ := h c (List.mem_filter.mp hc).1
  cases condition with
  | equals name text => exact ⟨_, rfl⟩
  | matching name regex => exact ⟨regex.matchesIn cs, by rw [holdsOf, hcs]; rfl⟩

/-- The conditions of a rule can be checked at every node of a tree between characters. -/
theorem Rule.exists_matchesAt_eq_ok (rule : Rule) {source : List UInt8} {n : Node}
    (hn : n.OnBoundaries source) : ∃ found, rule.matchesAt source n = .ok found := by
  refine exists_filterM_eq_ok fun captures hcap => ?_
  refine exists_allM_eq_ok fun condition _ => ?_
  refine condition.exists_holds_eq_ok fun c hc => ?_
  obtain ⟨m, hm, hcm⟩ := rule.pattern.matchesAt_local n captures hcap c hc
  rw [List.mem_singleton.mp hm] at hcm
  exact (hn.start_boundary _ hcm).exists_decode (hn.stop_boundary _ hcm) (hn.start_le_stop _ hcm)

/-- A query has an answer in every tree between characters of a source. -/
def Query.Answers (source : List UInt8) (query : Query) : Prop :=
  ∀ root : Node, root.OnBoundaries source → ∃ found, query root = .ok found

/-- A query of rules has an answer. -/
theorem queryOf_answers (rules : List Rule) (source : List UInt8) :
    Query.Answers source (queryOf rules source) := by
  intro root hroot
  refine exists_bind_eq_ok (exists_mapM_eq_ok fun n hn => ?_) fun found _ => ⟨_, rfl⟩
  exact exists_mapM_eq_ok fun rule _ => rule.exists_matchesAt_eq_ok (hroot.of_mem_preorder hn)

/-! ### Queries that fail -/

theorem mem_addCapture {groups : List (String × List Node)} {c : Capture} {name : String}
    {nodes : List Node} {n : Node} (h : (name, nodes) ∈ addCapture groups c) (hn : n ∈ nodes) :
    (c.name = name ∧ c.node = n) ∨ ∃ nodes', (name, nodes') ∈ groups ∧ n ∈ nodes' := by
  induction groups with
  | nil =>
      rw [addCapture, List.mem_singleton] at h
      obtain ⟨rfl, rfl⟩ := Prod.mk.inj h
      exact .inl ⟨rfl, (List.mem_singleton.mp hn).symm⟩
  | cons group rest ih =>
      obtain ⟨key, kept⟩ := group
      rw [addCapture] at h
      split at h
      · rename_i hkey
        rcases List.mem_cons.mp h with h | h
        · obtain ⟨rfl, rfl⟩ := Prod.mk.inj h
          rcases List.mem_append.mp hn with hn | hn
          · exact .inr ⟨kept, List.mem_cons_self, hn⟩
          · exact .inl ⟨(beq_iff_eq.mp hkey).symm, (List.mem_singleton.mp hn).symm⟩
        · exact .inr ⟨nodes, List.mem_cons_of_mem _ h, hn⟩
      · rcases List.mem_cons.mp h with h | h
        · exact .inr ⟨nodes, h ▸ List.mem_cons_self, hn⟩
        · rcases ih h with h | ⟨nodes', h, hn⟩
          · exact .inl h
          · exact .inr ⟨nodes', List.mem_cons_of_mem _ h, hn⟩

/-- A node in a group is captured under the name of the group. -/
theorem exists_of_mem_groupCaptures {captures : List Capture} {name : String} {nodes : List Node}
    {n : Node} (h : (name, nodes) ∈ groupCaptures captures) (hn : n ∈ nodes) :
    ∃ c ∈ captures, c.name = name ∧ c.node = n := by
  induction captures using List.reverseRecOn generalizing nodes with
  | nil => cases h
  | append_singleton captures c ih =>
      rw [groupCaptures, List.foldl_append, List.foldl_cons, List.foldl_nil] at h
      rcases mem_addCapture h hn with hc | ⟨nodes', h, hn⟩
      · exact ⟨c, List.mem_append_right _ (List.mem_singleton_self c), hc⟩
      · obtain ⟨d, hd, hdn⟩ := ih h hn
        exact ⟨d, List.mem_append_left _ hd, hdn⟩

/-- A new node is in the group of its name. -/
theorem exists_mem_addCapture (groups : List (String × List Node)) (c : Capture) :
    ∃ nodes, (c.name, nodes) ∈ addCapture groups c ∧ c.node ∈ nodes := by
  induction groups with
  | nil => exact ⟨_, List.mem_singleton_self _, List.mem_singleton_self _⟩
  | cons group rest ih =>
      obtain ⟨key, kept⟩ := group
      rw [addCapture]
      split
      · rename_i hkey
        rw [beq_iff_eq.mp hkey]
        exact ⟨_, List.mem_cons_self, List.mem_append_right _ (List.mem_singleton_self _)⟩
      · obtain ⟨nodes, hnodes, hc⟩ := ih
        exact ⟨nodes, List.mem_cons_of_mem _ hnodes, hc⟩

/-- What is in a group stays in it. -/
theorem exists_mem_addCapture_of_mem {groups : List (String × List Node)} {name : String}
    {nodes : List Node} {n : Node} (h : (name, nodes) ∈ groups) (hn : n ∈ nodes) (c : Capture) :
    ∃ nodes', (name, nodes') ∈ addCapture groups c ∧ n ∈ nodes' := by
  induction groups with
  | nil => cases h
  | cons group rest ih =>
      obtain ⟨key, kept⟩ := group
      rw [addCapture]
      rcases List.mem_cons.mp h with h | h
      · obtain ⟨rfl, rfl⟩ := Prod.mk.inj h
        split
        · exact ⟨_, List.mem_cons_self, List.mem_append_left _ hn⟩
        · exact ⟨_, List.mem_cons_self, hn⟩
      · split
        · exact ⟨nodes, List.mem_cons_of_mem _ h, hn⟩
        · obtain ⟨nodes', h, hn⟩ := ih h
          exact ⟨nodes', List.mem_cons_of_mem _ h, hn⟩

/-- A named node is in the group of its name. -/
theorem exists_mem_groupCaptures {captures : List Capture} {c : Capture} (hc : c ∈ captures) :
    ∃ nodes, (c.name, nodes) ∈ groupCaptures captures ∧ c.node ∈ nodes := by
  induction captures using List.reverseRecOn with
  | nil => cases hc
  | append_singleton captures d ih =>
      rw [groupCaptures, List.foldl_append, List.foldl_cons, List.foldl_nil]
      rcases List.mem_append.mp hc with hc | hc
      · obtain ⟨nodes, hnodes, hmem⟩ := ih hc
        exact exists_mem_addCapture_of_mem hnodes hmem d
      · rw [List.mem_singleton.mp hc]
        exact exists_mem_addCapture _ d

end CodeChallenges.Tree

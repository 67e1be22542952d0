import CodeChallenges.Language.BuiltIn
import CodeChallenges.Proofs.Candidates.Structural
import CodeChallenges.Proofs.Tree.Plain
/-!
# Functions and methods of Python

Four patterns find the structural code of Python: definitions of functions and of classes by their
names, and the functions in the body of a class, with decorators or without.  So a function in the body
of a class is found twice, as a function and as a method (`exists_capture_iff`).  A method has the lower
rank, and where nothing else is found at its place, the function is told as one (`functions_told`).
Whether the class around it could be parsed does not matter.
-/

namespace CodeChallenges

open CodeChallenges.Tree (Node Pattern Capture)

/-! ## Patterns as texts -/

namespace Grammar

/-- A text, with no blanks around it, writes one pattern without conditions. -/
structure Writes (text : String) (p : Pattern) : Prop where
  trimmed_eq : Text.trimmed text = text
  ne_empty : text ≠ ""
  rules_eq : Pattern.rulesOf? text = some [⟨p, []⟩]

theorem writes_of_tokens {cs : List Char} {p : Pattern} (ts : List Pattern.Token)
    (htrim : Text.trim cs = cs) (hne : cs ≠ [])
    (htokens : Pattern.tokensFrom cs.length cs = some ts)
    (hrules : Pattern.readRules ts.length ts = some [⟨p, []⟩]) : Writes (String.ofList cs) p := by
  refine ⟨?_, ?_, Pattern.rulesOf?_of_tokens ts htokens hrules⟩
  · rw [Text.trimmed, String.toList_ofList, htrim]
  · intro hempty
    exact hne (by rw [← String.toList_ofList (l := cs), hempty]; rfl)

/-- Where a grammar accepts texts without blanks around them, all of them are kept. -/
theorem accepted_eq_self {g : Grammar} {texts : List String} {ps : List Pattern}
    (hwritten : List.Forall₂ Writes texts ps) (haccepts : ∀ text ∈ texts, g.patternFault text = none) :
    g.accepted texts = texts := by
  have htrimmed : trimPatterns texts = texts := by
    have hself : texts.map Text.trimmed = texts.map id := by
      refine List.map_congr_left fun text htext => ?_
      obtain ⟨p, -, hwrites⟩ := exists_mem_of_forall₂ hwritten htext
      exact hwrites.trimmed_eq
    rw [trimPatterns, hself, List.map_id, List.filter_eq_self]
    intro text htext
    obtain ⟨p, -, hwrites⟩ := exists_mem_of_forall₂ hwritten htext
    exact bne_iff_ne.mpr hwrites.ne_empty
  rw [accepted, htrimmed, List.filter_eq_self]
  intro text htext
  rw [haccepts text htext]
  rfl

end Grammar

namespace Candidates

/-- Patterns without conditions find their matches pattern by pattern, and cannot fail. -/
theorem matchesOf_eq_ok_of_writes {texts : List String} {ps : List Pattern}
    (h : List.Forall₂ Grammar.Writes texts ps) (source : List UInt8) (root : Node) :
    matchesOf (texts.map (Grammar.queryOfText source)) root =
      .ok (ps.flatMap fun p => root.preorder.flatMap p.matchesAt) := by
  have hfound : (texts.map (Grammar.queryOfText source)).mapM
      (fun query : Tree.Query => (query root).mapError Fault.text) =
        .ok (ps.map fun p => root.preorder.flatMap p.matchesAt) := by
    rw [mapM_eq_ok_iff, List.forall₂_map_left_iff, List.forall₂_map_right_iff]
    refine h.imp fun text p hwrites => mapError_eq_ok_iff.mpr ?_
    rw [Grammar.queryOfText, hwrites.rules_eq]
    exact Tree.queryOf_plain p source root
  exact bind_eq_ok_iff.mpr ⟨_, hfound, rfl⟩

end Candidates

/-! ## The patterns of Python -/

namespace BuiltIn.Python

/-- A definition of a kind, under a name, with the identifier that it gives itself. -/
def definition (kind capture : String) : Pattern :=
  .node (.ofKind kind) [capture]
    [.inField "name" (.node (.ofKind "identifier") ["name"] [])]

/-- What stands in the body of a class. -/
def member (p : Pattern) : Pattern :=
  .node (.ofKind "class_definition") [] [.inField "body" (.node (.ofKind "block") [] [p])]

/-- What stands below a decorator. -/
def decorated (p : Pattern) : Pattern :=
  .node (.ofKind "decorated_definition") [] [.inField "definition" p]

/-- The patterns for the structural code. -/
def patterns : List Pattern := [
  definition "function_definition" "function",
  definition "class_definition" "class",
  member (definition "function_definition" "method"),
  member (decorated (definition "function_definition" "method"))]

/-- The tokens of a definition. -/
def definitionTokens (kind capture : String) : List Pattern.Token := [
  .openNode, .word kind, .word "name", .colon, .openNode, .word "identifier", .closeNode,
  .capture "name", .closeNode, .capture capture]

/-- The tokens of what stands in the body of a class. -/
def memberTokens (ts : List Pattern.Token) : List Pattern.Token :=
  [.openNode, .word "class_definition", .word "body", .colon, .openNode, .word "block"] ++ ts ++
    [.closeNode, .closeNode]

/-- The tokens of what stands below a decorator. -/
def decoratedTokens (ts : List Pattern.Token) : List Pattern.Token :=
  [.openNode, .word "decorated_definition", .word "definition", .colon] ++ ts ++ [.closeNode]

/-- The texts of Python write these patterns. -/
theorem writes_patterns : List.Forall₂ Grammar.Writes python.patterns patterns := by
  -- A literal is unified with the text of its characters, which no decoding has to find.
  refine .cons ?_ (.cons ?_ (.cons ?_ (.cons ?_ .nil)))
  · exact Grammar.writes_of_tokens (definitionTokens "function_definition" "function")
      rfl (List.cons_ne_nil _ _) rfl rfl
  · exact Grammar.writes_of_tokens (definitionTokens "class_definition" "class")
      rfl (List.cons_ne_nil _ _) rfl rfl
  · exact Grammar.writes_of_tokens (memberTokens (definitionTokens "function_definition" "method"))
      rfl (List.cons_ne_nil _ _) rfl rfl
  · exact Grammar.writes_of_tokens
      (memberTokens (decoratedTokens (definitionTokens "function_definition" "method")))
      rfl (List.cons_ne_nil _ _) rfl rfl

/-! ## What the patterns capture -/

/-- A definition of a kind that has an identifier in the role of its name. -/
def IsDefinition (kind : String) (n : Node) : Prop :=
  n.IsOfKind kind ∧ ∃ c ∈ n.children, c.label.field = some "name" ∧ c.IsOfKind "identifier"

/-- A node stands in the block that is the body of a class, or it is what a decorator is for that
stands there. -/
def IsMember (root n : Node) : Prop :=
  ∃ k ∈ root.preorder, k.IsOfKind "class_definition" ∧
    ∃ b ∈ k.children, b.label.field = some "body" ∧ b.IsOfKind "block" ∧
      (n ∈ b.children ∨ ∃ d ∈ b.children, d.IsOfKind "decorated_definition" ∧
        n ∈ d.children ∧ n.label.field = some "definition")

/-- A match captures a node under a name for a kind of code. -/
def CapturesAs (captures : List Capture) (t : ChunkType) (n : Node) : Prop :=
  ∃ c ∈ captures, c.node = n ∧ python.chunkTypeFor c.name = some t

variable {t : ChunkType} {n : Node}

/-- A match for definitions captures the node where it is found, if it is one. -/
theorem exists_definition_iff {kind capture : String} {m : Node} :
    (∃ captures ∈ (definition kind capture).matchesAt m, CapturesAs captures t n) ↔
      m = n ∧ IsDefinition kind n ∧ python.chunkTypeFor capture = some t := by
  constructor
  · rintro ⟨captures, hcap, k, hk, rfl, hkind⟩
    obtain ⟨hm, c, hc, below, hbelow, rfl⟩ := (Pattern.mem_matchesAt_singleton rfl).mp hcap
    obtain ⟨hfield, hbelow⟩ := Pattern.mem_matchesAt_inField.mp hbelow
    obtain ⟨hidentifier, rfl⟩ := Pattern.mem_matchesAt_leaf.mp hbelow
    rcases List.mem_cons.mp hk with rfl | hk
    · exact ⟨rfl, ⟨hm, c, hc, hfield, hidentifier⟩, hkind⟩
    · -- The name of a definition is no name for a kind of code.
      rw [List.mem_singleton.mp hk] at hkind
      cases hkind
  · rintro ⟨rfl, ⟨hm, c, hc, hfield, hidentifier⟩, hkind⟩
    have hname : [Capture.mk "name" c] ∈
        (Pattern.node (.ofKind "identifier") ["name"] []).matchesAt c :=
      Pattern.mem_matchesAt_leaf.mpr ⟨hidentifier, rfl⟩
    have hcap : [Capture.mk capture m, ⟨"name", c⟩] ∈ (definition kind capture).matchesAt m :=
      (Pattern.mem_matchesAt_singleton rfl).mpr
        ⟨hm, c, hc, _, Pattern.mem_matchesAt_inField.mpr ⟨hfield, hname⟩, rfl⟩
    exact ⟨_, hcap, _, List.mem_cons_self, rfl, hkind⟩

theorem exists_member_iff {p : Pattern} (hp : p.isAdjacent = false) {k : Node} :
    (∃ captures ∈ (member p).matchesAt k, CapturesAs captures t n) ↔
      k.IsOfKind "class_definition" ∧
        ∃ b ∈ k.children, b.label.field = some "body" ∧ b.IsOfKind "block" ∧
          ∃ m ∈ b.children, ∃ captures ∈ p.matchesAt m, CapturesAs captures t n := by
  constructor
  · rintro ⟨captures, hcap, hn⟩
    obtain ⟨hk, b, hb, below, hbelow, rfl⟩ := (Pattern.mem_matchesAt_singleton rfl).mp hcap
    obtain ⟨hfield, hbelow⟩ := Pattern.mem_matchesAt_inField.mp hbelow
    obtain ⟨hblock, m, hm, here, hhere, rfl⟩ := (Pattern.mem_matchesAt_singleton hp).mp hbelow
    exact ⟨hk, b, hb, hfield, hblock, m, hm, _, hhere, hn⟩
  · rintro ⟨hk, b, hb, hfield, hblock, m, hm, here, hhere, hn⟩
    refine ⟨here, (Pattern.mem_matchesAt_singleton rfl).mpr ⟨hk, b, hb, here, ?_, rfl⟩, hn⟩
    exact Pattern.mem_matchesAt_inField.mpr
      ⟨hfield, (Pattern.mem_matchesAt_singleton hp).mpr ⟨hblock, m, hm, here, hhere, rfl⟩⟩

theorem exists_decorated_iff {p : Pattern} {d : Node} :
    (∃ captures ∈ (decorated p).matchesAt d, CapturesAs captures t n) ↔
      d.IsOfKind "decorated_definition" ∧
        ∃ m ∈ d.children, m.label.field = some "definition" ∧
          ∃ captures ∈ p.matchesAt m, CapturesAs captures t n := by
  constructor
  · rintro ⟨captures, hcap, hn⟩
    obtain ⟨hd, m, hm, here, hhere, rfl⟩ := (Pattern.mem_matchesAt_singleton rfl).mp hcap
    obtain ⟨hfield, hhere⟩ := Pattern.mem_matchesAt_inField.mp hhere
    exact ⟨hd, m, hm, hfield, _, hhere, hn⟩
  · rintro ⟨hd, m, hm, hfield, here, hhere, hn⟩
    exact ⟨here, (Pattern.mem_matchesAt_singleton rfl).mpr
      ⟨hd, m, hm, here, Pattern.mem_matchesAt_inField.mpr ⟨hfield, hhere⟩, rfl⟩, hn⟩

/-- What the patterns find in a tree, pattern by pattern. -/
def found (root : Node) : List (List Capture) :=
  patterns.flatMap fun p => root.preorder.flatMap p.matchesAt

theorem exists_mem_found_iff {root : Node} :
    (∃ captures ∈ found root, CapturesAs captures t n) ↔
      ∃ p ∈ patterns, ∃ m ∈ root.preorder, ∃ captures ∈ p.matchesAt m, CapturesAs captures t n := by
  simp only [found, List.mem_flatMap]
  constructor
  · rintro ⟨captures, ⟨p, hp, m, hm, hcap⟩, hn⟩
    exact ⟨p, hp, m, hm, captures, hcap, hn⟩
  · rintro ⟨p, hp, m, hm, captures, hcap, hn⟩
    exact ⟨captures, ⟨p, hp, m, hm, hcap⟩, hn⟩

/-- **What the patterns capture**: every definition of a function as a function, every definition of a
class as a class, and the functions in the body of a class as methods. -/
theorem exists_capture_iff {root : Node} :
    (∃ captures ∈ found root, CapturesAs captures t n) ↔
      (t = .function ∧ n ∈ root.preorder ∧ IsDefinition "function_definition" n) ∨
      (t = .classDecl ∧ n ∈ root.preorder ∧ IsDefinition "class_definition" n) ∨
      (t = .method ∧ IsDefinition "function_definition" n ∧ IsMember root n) := by
  have hfunction : python.chunkTypeFor "function" = some .function := rfl
  have hclass : python.chunkTypeFor "class" = some .classDecl := rfl
  have hmethod : python.chunkTypeFor "method" = some .method := rfl
  rw [exists_mem_found_iff]
  constructor
  · rintro ⟨p, hp, m, hm, hcap⟩
    simp only [patterns, List.mem_cons, List.not_mem_nil, or_false] at hp
    rcases hp with rfl | rfl | rfl | rfl
    · obtain ⟨rfl, hdef, hkind⟩ := exists_definition_iff.mp hcap
      exact .inl ⟨Option.some.inj (hkind.symm.trans hfunction), hm, hdef⟩
    · obtain ⟨rfl, hdef, hkind⟩ := exists_definition_iff.mp hcap
      exact .inr (.inl ⟨Option.some.inj (hkind.symm.trans hclass), hm, hdef⟩)
    · obtain ⟨hk, b, hb, hfield, hblock, c, hc, hcap⟩ := (exists_member_iff rfl).mp hcap
      obtain ⟨rfl, hdef, hkind⟩ := exists_definition_iff.mp hcap
      exact .inr (.inr ⟨Option.some.inj (hkind.symm.trans hmethod), hdef,
        m, hm, hk, b, hb, hfield, hblock, .inl hc⟩)
    · obtain ⟨hk, b, hb, hfield, hblock, d, hd, hcap⟩ := (exists_member_iff rfl).mp hcap
      obtain ⟨hdecorated, c, hc, hrole, hcap⟩ := exists_decorated_iff.mp hcap
      obtain ⟨rfl, hdef, hkind⟩ := exists_definition_iff.mp hcap
      exact .inr (.inr ⟨Option.some.inj (hkind.symm.trans hmethod), hdef,
        m, hm, hk, b, hb, hfield, hblock, .inr ⟨d, hd, hdecorated, hc, hrole⟩⟩)
  · rintro (⟨rfl, hn, hdef⟩ | ⟨rfl, hn, hdef⟩ |
      ⟨rfl, hdef, k, hk, hclassdef, b, hb, hfield, hblock, hn⟩)
    · exact ⟨_, List.mem_cons_self, n, hn, exists_definition_iff.mpr ⟨rfl, hdef, hfunction⟩⟩
    · exact ⟨_, List.mem_cons_of_mem _ List.mem_cons_self, n, hn,
        exists_definition_iff.mpr ⟨rfl, hdef, hclass⟩⟩
    · rcases hn with hn | ⟨d, hd, hdecorated, hn, hrole⟩
      · have hpattern : member (definition "function_definition" "method") ∈ patterns :=
          List.mem_cons_of_mem _ (List.mem_cons_of_mem _ List.mem_cons_self)
        refine ⟨_, hpattern, k, hk, ?_⟩
        exact (exists_member_iff rfl).mpr ⟨hclassdef, b, hb, hfield, hblock, n, hn,
          exists_definition_iff.mpr ⟨rfl, hdef, hmethod⟩⟩
      · have hpattern : member (decorated (definition "function_definition" "method")) ∈ patterns :=
          List.mem_cons_of_mem _ (List.mem_cons_of_mem _ (List.mem_cons_of_mem _ List.mem_cons_self))
        refine ⟨_, hpattern, k, hk, ?_⟩
        exact (exists_member_iff rfl).mpr ⟨hclassdef, b, hb, hfield, hblock, d, hd,
          exists_decorated_iff.mpr ⟨hdecorated, n, hn, hrole,
            exists_definition_iff.mpr ⟨rfl, hdef, hmethod⟩⟩⟩

/-! ## The chunks -/

open Candidates

/-- What is sighted: the captured nodes that could be parsed. -/
theorem exists_sighting_iff {path : String} {source : List UInt8} {root : Node} :
    (∃ x ∈ (Setting.ofFile python path source).sightings (found root),
        x.chunkType = t ∧ x.node = n) ↔
      n.label.hasError = false ∧
        ((t = .function ∧ n ∈ root.preorder ∧ IsDefinition "function_definition" n) ∨
        (t = .classDecl ∧ n ∈ root.preorder ∧ IsDefinition "class_definition" n) ∨
        (t = .method ∧ IsDefinition "function_definition" n ∧ IsMember root n)) := by
  rw [Setting.exists_mem_sightings_iff, ← exists_capture_iff]
  rfl

/-- A function is sighted as a function, and as a method if it is a member. -/
theorem chunkType_of_sighting {path : String} {source : List UInt8} {root : Node} {x : Sighting}
    (hx : x ∈ (Setting.ofFile python path source).sightings (found root))
    (hdef : IsDefinition "function_definition" x.node) :
    x.chunkType = .function ∨ x.chunkType = .method ∧ IsMember root x.node := by
  obtain ⟨-, hcases⟩ := exists_sighting_iff.mp ⟨x, hx, rfl, rfl⟩
  rcases hcases with ⟨htype, -⟩ | ⟨-, -, hclass, -⟩ | ⟨htype, -, hmember⟩
  · exact .inl htype
  · exact absurd (hdef.1.2.symm.trans hclass.2) (by decide)
  · exact .inr ⟨htype, hmember⟩

/-- Only definitions of the tree are sighted. -/
theorem definition_of_sighting {path : String} {source : List UInt8} {root : Node} {x : Sighting}
    (hx : x ∈ (Setting.ofFile python path source).sightings (found root)) :
    x.node ∈ root.preorder ∧
      (IsDefinition "function_definition" x.node ∨ IsDefinition "class_definition" x.node) := by
  constructor
  · obtain ⟨-, captures, hcap, c, hc, hnode, -⟩ :=
      Setting.exists_mem_sightings_iff.mp ⟨x, hx, rfl, rfl⟩
    obtain ⟨p, -, hcap⟩ := List.mem_flatMap.mp hcap
    obtain ⟨m, hm, hcap⟩ := List.mem_flatMap.mp hcap
    obtain ⟨_, hmem, hbelow⟩ := p.matchesAt_local m captures hcap c hc
    rw [List.mem_singleton.mp hmem, hnode] at hbelow
    exact Node.preorder_trans hm hbelow
  · obtain ⟨-, ⟨-, -, hdef⟩ | ⟨-, -, hdef⟩ | ⟨-, hdef, -⟩⟩ :=
      exists_sighting_iff.mp ⟨x, hx, rfl, rfl⟩
    · exact .inl hdef
    · exact .inr hdef
    · exact .inl hdef

/-- A grammar that accepts the patterns of Python compiles them to queries that find what they find. -/
theorem matchesOf_compiled {g : Grammar} {compiled : Grammar.Patterns}
    (haccepts : ∀ text ∈ python.patterns, g.patternFault text = none)
    (hcompile : Grammar.compile python g = .ok compiled) (source : List UInt8) (root : Node) :
    matchesOf (compiled.queries source).structural root = .ok (found root) := by
  obtain ⟨-, rfl⟩ := Grammar.compile_eq_ok_iff.mp hcompile
  show matchesOf ((g.accepted python.patterns).map _) root = _
  rw [Grammar.accepted_eq_self writes_patterns haccepts]
  exact matchesOf_eq_ok_of_writes writes_patterns source root

/-- **The functions of Python are told**: where a grammar accepts the patterns and no two captured
nodes share a place, each definition of a function by an identifier that could be parsed has exactly
one chunk, from the start of its line to its end.  The chunk is a method if the function stands in the
body of a class, by itself or below a decorator, and else a function.  Nothing is asked of the class,
which may hold syntax errors and have no chunk. -/
theorem functions_told {g : Grammar} {compiled : Grammar.Patterns} {path : String}
    {source : List UInt8} {root : Node}
    (haccepts : ∀ text ∈ python.patterns, g.patternFault text = none)
    (hcompile : Grammar.compile python g = .ok compiled) (hroot : root.Within source.length)
    (hplaces : ∀ captured, matchesOf (compiled.queries source).structural root = .ok captured →
      (Setting.ofFile python path source).SeparatePlaces captured) :
    ∃ chunks, (Setting.ofFile python path source).structural (compiled.queries source) root =
        .ok chunks ∧
      ∀ f ∈ root.preorder, IsDefinition "function_definition" f → f.label.hasError = false →
        ∃ c, chunks.filter (fun d => d.span.range = (lineStart source f.start, f.stop)) = [c] ∧
          (c.chunkType = .method ↔ IsMember root f) ∧
          (c.chunkType = .function ↔ ¬ IsMember root f) := by
  have hfound := matchesOf_compiled haccepts hcompile source root
  obtain ⟨chunks, hchunks, hsum⟩ :=
    Setting.structuralOf_summarises (s := Setting.ofFile python path source) rfl hroot
      (mem_preorder_of_matchesOf (compiled.structural_local source) hfound)
  refine ⟨chunks, bind_eq_ok_iff.mpr ⟨_, hfound, hchunks⟩, fun f hf hdef hparsed => ?_⟩
  obtain ⟨x, hx, -, rfl⟩ := exists_sighting_iff.mpr ⟨hparsed, .inl ⟨rfl, hf, hdef⟩⟩
  obtain ⟨c, hc, y, hy, hnode, htype, hleast⟩ :=
    hsum.exists_chunk_of_sighting (hplaces _ hfound) hx
  refine ⟨c, hc, ?_⟩
  rw [htype]
  by_cases hmember : IsMember root x.node
  · -- A member is sighted as a method, and no kind has a lower rank.
    obtain ⟨z, hz, hmethod, hznode⟩ :=
      exists_sighting_iff.mpr ⟨hparsed, .inr (.inr ⟨rfl, hdef, hmember⟩)⟩
    have hlower : ¬ python.rank .function ≤ python.rank .method := by decide
    have hrank := hleast z hz hznode
    rw [hmethod] at hrank
    have hytype : y.chunkType = .method := by
      rcases chunkType_of_sighting hy (hnode ▸ hdef) with hfunction | ⟨hmethod, -⟩
      · rw [hfunction] at hrank
        exact absurd hrank hlower
      · exact hmethod
    rw [hytype]
    exact ⟨iff_of_true rfl hmember, iff_of_false nofun (not_not_intro hmember)⟩
  · have hytype : y.chunkType = .function := by
      rcases chunkType_of_sighting hy (hnode ▸ hdef) with hfunction | ⟨-, hother⟩
      · exact hfunction
      · exact absurd (hnode ▸ hother) hmember
    rw [hytype]
    exact ⟨iff_of_false nofun hmember, iff_of_true rfl hmember⟩

/-! ## A class with a syntax error -/

/-- A class with a function, a decorated function and a statement that breaks off, and a function after
the class. -/
def brokenContent : List UInt8 :=
  Text.Utf8.encode "class A:\n  def f(): 1\n  @d\n  def g(): 2\n  x = (\ndef h(): 3\n".toList

/-- A function with its name. -/
def functionNode (id start stop : Nat) (field : Option String) : Node :=
  .mk ⟨id, "function_definition", start, stop, true, false, field⟩ [
    .mk ⟨id + 1, "identifier", start + 4, start + 5, true, false, some "name"⟩ []]

/-- The body of the class. -/
def brokenBody : Node :=
  .mk ⟨3, "block", 11, 47, true, true, some "body"⟩ [
    functionNode 4 11 21 none,
    .mk ⟨6, "decorated_definition", 24, 39, true, false, none⟩ [
      functionNode 7 29 39 (some "definition")],
    .mk ⟨9, "ERROR", 42, 47, true, true, none⟩ []]

/-- The class. -/
def brokenClass : Node :=
  .mk ⟨1, "class_definition", 0, 47, true, true, none⟩ [
    .mk ⟨2, "identifier", 6, 7, true, false, some "name"⟩ [],
    brokenBody]

/-- The tree of the file. -/
def brokenTree : Node :=
  .mk ⟨0, "module", 0, 59, true, true, none⟩ [brokenClass, functionNode 10 48 58 none]

theorem broken_within : brokenTree.Within brokenContent.length := by
  unfold Node.Within
  decide

theorem standard_accepts : ∀ text ∈ python.patterns, Grammar.standard.patternFault text = none := by
  intro text htext
  obtain ⟨p, -, hwrites⟩ := exists_mem_of_forall₂ writes_patterns htext
  show (if (Pattern.rulesOf? text).isSome then none else _) = none
  rw [hwrites.rules_eq]
  rfl

/-- The definitions of the file begin or end in different places. -/
theorem broken_separate :
    (Setting.ofFile python "a.py" brokenContent).SeparatePlaces (found brokenTree) := by
  have hnodup : ((brokenTree.preorder.filter fun n =>
      n.kind = "function_definition" ∨ n.kind = "class_definition").map fun n =>
        (lineStart brokenContent n.start, n.stop)).Nodup := by decide
  have hmem : ∀ x ∈ (Setting.ofFile python "a.py" brokenContent).sightings (found brokenTree),
      x.node ∈ brokenTree.preorder.filter fun n =>
        n.kind = "function_definition" ∨ n.kind = "class_definition" := by
    intro x hx
    obtain ⟨hnode, hdef⟩ := definition_of_sighting hx
    exact List.mem_filter.mpr ⟨hnode, decide_eq_true (hdef.imp (·.1.2) (·.1.2))⟩
  intro x hx y hy hrange
  exact List.inj_on_of_nodup_map hnodup (hmem x hx) (hmem y hy) hrange

/-- A function with its name is a definition. -/
theorem functionNode_isDefinition (id start stop : Nat) (field : Option String) :
    IsDefinition "function_definition" (functionNode id start stop field) :=
  ⟨⟨rfl, rfl⟩, _, List.mem_cons_self, rfl, rfl, rfl⟩

/-- The body of the class is the only one, and holds the first two functions. -/
theorem broken_members :
    IsMember brokenTree (functionNode 4 11 21 none) ∧
    IsMember brokenTree (functionNode 7 29 39 (some "definition")) ∧
    ¬ IsMember brokenTree (functionNode 10 48 58 none) := by
  have hclass : brokenClass ∈ brokenTree.preorder := List.mem_of_getElem? (i := 1) rfl
  have hbody : brokenBody ∈ brokenClass.children := List.mem_cons_of_mem _ List.mem_cons_self
  refine ⟨⟨_, hclass, ⟨rfl, rfl⟩, _, hbody, rfl, ⟨rfl, rfl⟩, .inl List.mem_cons_self⟩,
    ⟨_, hclass, ⟨rfl, rfl⟩, _, hbody, rfl, ⟨rfl, rfl⟩, .inr
      ⟨_, List.mem_cons_of_mem _ List.mem_cons_self, ⟨rfl, rfl⟩, List.mem_cons_self, rfl⟩⟩, ?_⟩
  -- Nodes are told apart by their labels.
  have hlabels : ∀ k ∈ brokenTree.preorder, k.kind = "class_definition" → ∀ b ∈ k.children,
      10 ∉ b.children.map (·.label.id) ∧
        ∀ d ∈ b.children, 10 ∉ d.children.map (·.label.id) := by decide
  rintro ⟨k, hk, ⟨-, hkind⟩, b, hb, -, -, hn⟩
  obtain ⟨hhere, hbelow⟩ := hlabels k hk hkind b hb
  rcases hn with hn | ⟨d, hd, -, hn, -⟩
  · exact hhere (List.mem_map_of_mem hn)
  · exact hbelow d hd (List.mem_map_of_mem hn)

/-- The two functions of the class are methods, although the class has a syntax error. -/
theorem functions_told_sample : ∃ compiled chunks,
    Grammar.compile python .standard = .ok compiled ∧
    (Setting.ofFile python "a.py" brokenContent).structural (compiled.queries brokenContent)
      brokenTree = .ok chunks ∧ brokenClass.label.hasError = true ∧
    (∃ c ∈ chunks, c.span.range = (9, 21) ∧ c.chunkType = .method) ∧
    (∃ c ∈ chunks, c.span.range = (27, 39) ∧ c.chunkType = .method) ∧
    (∃ c ∈ chunks, c.span.range = (48, 58) ∧ c.chunkType = .function) := by
  obtain ⟨compiled, hcompile⟩ : ∃ compiled, Grammar.compile python .standard = .ok compiled := by
    refine ⟨_, Grammar.compile_eq_ok_iff.mpr ⟨?_, rfl⟩⟩
    show Grammar.standard.accepted python.patterns ≠ []
    rw [Grammar.accepted_eq_self writes_patterns standard_accepts]
    exact List.cons_ne_nil _ _
  have hplaces : ∀ captured,
      matchesOf (compiled.queries brokenContent).structural brokenTree = .ok captured →
        (Setting.ofFile python "a.py" brokenContent).SeparatePlaces captured := by
    intro captured hcaptured
    rw [matchesOf_compiled standard_accepts hcompile] at hcaptured
    cases hcaptured
    exact broken_separate
  obtain ⟨chunks, hchunks, htold⟩ := functions_told standard_accepts hcompile broken_within hplaces
  have hchunk : ∀ f ∈ brokenTree.preorder, IsDefinition "function_definition" f →
      f.label.hasError = false →
        ∃ c ∈ chunks, c.span.range = (lineStart brokenContent f.start, f.stop) ∧
          (c.chunkType = .method ↔ IsMember brokenTree f) ∧
          (c.chunkType = .function ↔ ¬ IsMember brokenTree f) := by
    intro f hf hdef hparsed
    obtain ⟨c, hc, hkind⟩ := htold f hf hdef hparsed
    have hmem := List.mem_filter.mp (hc ▸ List.mem_singleton_self c)
    exact ⟨c, hmem.1, of_decide_eq_true hmem.2, hkind⟩
  obtain ⟨hfirst, hsecond, hthird⟩ := broken_members
  refine ⟨compiled, chunks, hcompile, hchunks, rfl, ?_, ?_, ?_⟩
  · obtain ⟨c, hc, hrange, hmethod, -⟩ :=
      hchunk _ (List.mem_of_getElem? (i := 4) rfl) (functionNode_isDefinition 4 11 21 none) rfl
    exact ⟨c, hc, hrange, hmethod.mpr hfirst⟩
  · obtain ⟨c, hc, hrange, hmethod, -⟩ :=
      hchunk _ (List.mem_of_getElem? (i := 7) rfl)
        (functionNode_isDefinition 7 29 39 (some "definition")) rfl
    exact ⟨c, hc, hrange, hmethod.mpr hsecond⟩
  · obtain ⟨c, hc, hrange, -, hfunction⟩ :=
      hchunk _ (List.mem_of_getElem? (i := 10) rfl) (functionNode_isDefinition 10 48 58 none) rfl
    exact ⟨c, hc, hrange, hfunction.mpr hthird⟩

end BuiltIn.Python

end CodeChallenges

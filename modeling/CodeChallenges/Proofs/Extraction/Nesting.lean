import CodeChallenges.Proofs.Extraction.File
/-!
# Challenges of one file nest

Nodes of a nested tree are disjoint or lie one inside the other.  Chunks begin at line starts, so
this has to be shown of chunks anew (`nodes_nest`): the line starts of a node and of a node inside
it are in the same order, and the line start of a later node does not come before the end of an
earlier one, since only indentation lies between a line start and its node, and no captured node
ends with indentation.  The order of selection then puts the outer chunk first.
-/

namespace CodeChallenges

open CodeChallenges.Tree (Node)

/-- Two challenges have no byte in common: one ends before the other begins. -/
def Challenge.Disjoint (a b : Challenge) : Prop :=
  a.endByte ≤ b.startByte ∨ b.endByte ≤ a.startByte

/-- The bytes of one challenge contain those of another. -/
def Challenge.Covers (a b : Challenge) : Prop :=
  a.startByte ≤ b.startByte ∧ b.endByte ≤ a.endByte

/-- One challenge contains another and is larger. -/
def Challenge.StrictlyCovers (a b : Challenge) : Prop :=
  a.Covers b ∧ (a.startByte, a.endByte) ≠ (b.startByte, b.endByte)

/-- Two chunks are disjoint, or one contains the other. -/
def Chunk.Nest (a b : Chunk) : Prop :=
  a.span.stop ≤ b.span.start ∨ b.span.stop ≤ a.span.start ∨
    a.span.contains b.span = true ∨ b.span.contains a.span = true

theorem Chunk.Nest.symm {a b : Chunk} (h : a.Nest b) : b.Nest a := by
  rcases h with h | h | h | h
  · exact .inr (.inl h)
  · exact .inl h
  · exact .inr (.inr (.inr h))
  · exact .inr (.inr (.inl h))

/-- The byte before the end of a node is no indentation. -/
def Tree.Node.EndsClean (source : List UInt8) (n : Node) : Prop :=
  0 < n.stop → ∀ b ∈ source[n.stop - 1]?, isIndentByte b = false

instance (source : List UInt8) (n : Node) : Decidable (n.EndsClean source) :=
  inferInstanceAs (Decidable (0 < n.stop → ∀ b ∈ source[n.stop - 1]?, isIndentByte b = false))

namespace Candidates.Setting

variable {s : Setting}

/-- A node that ends cleanly before another ends before the line start of the other. -/
theorem stop_le_lineStart {source : List UInt8} {m n : Node} (hclean : m.EndsClean source)
    (hmn : m.stop ≤ n.start) (hn : n.start ≤ source.length) :
    m.stop ≤ lineStart source n.start := by
  rcases lineStart_cases source hn with h | ⟨-, -, hindent⟩
  · rw [h]
    exact hmn
  · by_contra hlt
    -- The last byte of `m` would lie between the line start and `n`, where all is indentation.
    have hbyte : source[m.stop - 1]? = some source[m.stop - 1] :=
      List.getElem?_eq_getElem (by omega)
    have hin := hindent (m.stop - 1) _ (by omega) (by omega) hbyte
    rw [hclean (by omega) _ hbyte] at hin
    cases hin

/-- Chunks cut from nodes of which one lies inside the other, or ends cleanly before it, nest. -/
theorem nodes_nest {c d : Chunk} {m n : Node} (hc : s.CutFrom c m) (hd : s.CutFrom d n)
    (hn : n.start ≤ s.source.length) (hclean : m.EndsClean s.source) (h : Node.Apart m n) :
    c.Nest d := by
  rcases h with ⟨hstart, hstop⟩ | hbefore
  · refine .inr (.inr (.inl ?_))
    have hline := lineStart_mono hstart hn
    simp only [Span.contains, Bool.and_eq_true, decide_eq_true_eq]
    rw [hc.start_eq, hc.stop_eq, hd.start_eq, hd.stop_eq]
    exact ⟨hline, hstop⟩
  · refine .inl ?_
    rw [hc.stop_eq, hd.start_eq]
    exact stop_le_lineStart hclean hbefore hn

/-- A chunk that is the whole file contains every chunk of the file. -/
theorem whole_nest {c d : Chunk} (hc : c.span.range = (0, s.source.length))
    (hd : d.span.OnLinesOf s.source) : c.Nest d := by
  obtain ⟨hstart, hstop⟩ := Prod.mk.inj hc
  refine .inr (.inr (.inl ?_))
  simp only [Span.contains, Bool.and_eq_true, decide_eq_true_eq]
  rw [hstart, hstop]
  exact ⟨Nat.zero_le _, hd.stop_le⟩

/-- Chunks with their origins in a nested tree nest. -/
theorem origins_nest {captured : Node → Prop} {root : Node} {c d : Chunk} (hroot : root.Nested)
    (hin : ∀ n, captured n → n ∈ root.preorder)
    (hclean : ∀ n, captured n → n.EndsClean s.source) (hc : s.Origin captured c)
    (hd : s.Origin captured d) : c.Nest d := by
  rcases hc.place with ⟨m, hm, hcut⟩ | hwhole
  · rcases hd.place with ⟨n, hn, hcut'⟩ | hwhole
    · have hmle : m.start ≤ s.source.length := by
        have := (hroot.of_mem_preorder (hin m hm)).start_le_stop
        have := hc.lines.stop_le
        have := hcut.stop_eq
        omega
      have hnle : n.start ≤ s.source.length := by
        have := (hroot.of_mem_preorder (hin n hn)).start_le_stop
        have := hd.lines.stop_le
        have := hcut'.stop_eq
        omega
      rcases hroot.laminar (hin m hm) (hin n hn) with hmn | hnm
      · exact nodes_nest hcut hcut' hnle (hclean m hm) hmn
      · exact (nodes_nest hcut' hcut hmle (hclean n hn) hnm).symm
    · exact (whole_nest hwhole hc.lines).symm
  · exact whole_nest hwhole hd.lines

end Candidates.Setting

namespace Extraction

open Repository (Snapshot Place GitService)
open Repository.Scanner (sampleLanguage sampleRegistry sampleContent sampleSnapshot sampleWorld
  sampleOptions)

/-- The challenges of chunks that nest are disjoint or contain one another. -/
theorem disjoint_or_covers_of_nest {a b : Challenge} {c d : Chunk} (ha : a.Places c)
    (hb : b.Places d) (h : c.Nest d) : a.Disjoint b ∨ a.Covers b ∨ b.Covers a := by
  simp only [Challenge.Disjoint, Challenge.Covers, ha.start_eq, ha.stop_eq, hb.start_eq, hb.stop_eq,
    Int.ofNat_le]
  simp only [Chunk.Nest, Span.contains, Bool.and_eq_true, decide_eq_true_eq] at h
  omega

/-- Challenges that are made from nesting candidates are disjoint or contain one another. -/
theorem MadeFrom.disjoint_or_covers {r : Registry} {o : Options} {s : Candidates.Setting}
    {root : Node} {candidates : List Chunk} {made : List Challenge}
    (hmade : MadeFrom r o s root candidates made)
    (hnest : ∀ c ∈ candidates, ∀ d ∈ candidates, c.Nest d) :
    ∀ a ∈ made, ∀ b ∈ made, a.Disjoint b ∨ a.Covers b ∨ b.Covers a := by
  intro a ha b hb
  obtain ⟨c, hc, hac⟩ := exists_of_mem_mapM hmade ha
  obtain ⟨d, hd, hbd⟩ := exists_of_mem_mapM hmade hb
  exact disjoint_or_covers_of_nest (Challenge.ofChunk_eq_ok hac).1 (Challenge.ofChunk_eq_ok hbd).1
    (hnest c (Selection.mem_of_mem_resolve hc) d (Selection.mem_of_mem_resolve hd))

/-- Of challenges that are made from candidates of one file, no later one contains an earlier
one. -/
theorem MadeFrom.outer_first {r : Registry} {o : Options} {s : Candidates.Setting}
    {root : Node} {candidates : List Chunk} {made : List Challenge}
    (hmade : MadeFrom r o s root candidates made) (hpath : ∀ c ∈ candidates, c.path = s.path) :
    made.Pairwise (fun a b => ¬ b.Covers a) := by
  obtain ⟨hasc, hsame⟩ := hmade.ascending hpath
  refine hasc.imp_of_mem fun {a b} ha hb hlt hcovers => ?_
  obtain ⟨hstart, hstop⟩ := hcovers
  rcases placeKey_lt_iff.mp hlt with hp | ⟨-, hs | ⟨hs, he⟩⟩
  · exact absurd ((hsame a ha).trans (hsame b hb).symm) (ne_of_lt hp)
  · omega
  · omega

/-- **Challenges of one file nest**: if the tree of the file is well-formed and no captured node
ends with indentation, then any two challenges are disjoint or one contains the other, and one that
strictly contains another comes first. -/
theorem processFile_nested {t : Toolkit} {r : Registry} {o : Options} {snapshot : Snapshot}
    {root : Place} {git : Option GitService} {path : String} {l : Language} {count : Nat}
    {made : List Challenge} {dropped : Int} {messages : List Log.Message} {content : List UInt8}
    {patterns : Grammar.Patterns}
    (h : processFile t r o snapshot root git path l =
      .ok ⟨.challenges count made, dropped, messages⟩)
    (hread : snapshot.read? root path = some content)
    (hpatterns : Grammar.prepare t.grammars l = .ok patterns)
    (htree : (t.parse l content).WellFormed content)
    (hclean : ∀ n, (Candidates.Setting.ofFile l path content).Captured
      ((patterns.queries content).used o) (t.parse l content) n → n.EndsClean content) :
    (∀ a ∈ made, ∀ b ∈ made, a.Disjoint b ∨ a.Covers b ∨ b.Covers a) ∧
      ∀ (i j : Nat) (hi : i < made.length) (hj : j < made.length),
        made[i].StrictlyCovers made[j] → i < j := by
  obtain ⟨-, patterns', hpatterns', candidates, hfrom, hmade⟩ := processFile_eq_ok h hread
  rw [hpatterns] at hpatterns'
  cases hpatterns'
  constructor
  · refine hmade.disjoint_or_covers fun c hc d hd => ?_
    exact Candidates.Setting.origins_nest htree.nested
      (fun n hn => hn.mem_preorder (patterns.used_local content o)) hclean (hfrom c hc) (hfrom d hd)
  · intro i j hi hj hcovers
    have horder := hmade.outer_first fun c hc => (hfrom c hc).path_eq
    rcases Nat.lt_trichotomy i j with hlt | rfl | hgt
    · exact hlt
    · exact absurd rfl hcovers.2
    · exact absurd hcovers.1 (List.pairwise_iff_getElem.mp horder j i hj hi hgt)

/-- The challenges of the small file nest: the outer definition comes before the inner one. -/
theorem processFile_nested_sample : ∃ count made dropped messages,
    processFile sampleToolkit sampleRegistry (sampleOptions []) sampleSnapshot ["r"]
      (some sampleWorld.git) "a/b/f.sample" sampleLanguage =
        .ok ⟨.challenges count made, dropped, messages⟩ ∧
    made.map (fun c => (c.startByte, c.endByte)) = [(0, 30), (8, 22)] ∧
    (∀ a ∈ made, ∀ b ∈ made, a.Disjoint b ∨ a.Covers b ∨ b.Covers a) ∧
      ∀ (i j : Nat) (hi : i < made.length) (hj : j < made.length),
        made[i].StrictlyCovers made[j] → i < j := by
  obtain ⟨made, messages, hok, hplaces⟩ := sample_processed
  obtain ⟨-, patterns, hpatterns, -⟩ := processFile_eq_ok hok sample_read
  have hends : ∀ n ∈ sampleTree.preorder, n.EndsClean sampleContent := by decide +kernel
  refine ⟨3, made, 1, messages, hok, hplaces,
    processFile_nested hok sample_read hpatterns sample_wellFormed fun n hn => hends n ?_⟩
  exact hn.mem_preorder (patterns.used_local sampleContent (sampleOptions []))

end Extraction

end CodeChallenges

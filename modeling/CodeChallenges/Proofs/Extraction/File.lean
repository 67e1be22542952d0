import CodeChallenges.Extraction.File
import CodeChallenges.Proofs.Candidates
import CodeChallenges.Proofs.Challenge
import CodeChallenges.Proofs.Repository.Scan
import CodeChallenges.Proofs.Selection
/-!
# From a file to its challenges

A file gives challenges only if it can be read as text.  Its challenges are then made one by one
from the selected candidates of its tree, in their order, and every candidate has its origin in a
captured node or is the whole file (`processFile_eq_ok`).
-/

namespace CodeChallenges

open CodeChallenges.Tree (Node Query)

/-- The place of a challenge. -/
def Challenge.place (c : Challenge) : PlaceKey :=
  placeKey c.filePath c.startByte c.endByte

/-- The queries that the options put to use. -/
def Queries.used (queries : Queries) (o : Options) : List Query :=
  queries.structural ++ if o.includeBlocks then queries.blocks else []

/-- The queries of accepted patterns are local. -/
theorem Grammar.Patterns.used_local (p : Grammar.Patterns) (source : List UInt8) (o : Options) :
    ∀ query ∈ (p.queries source).used o, query.Local := by
  intro query hquery
  have hread : ∃ text, query = Grammar.queryOfText source text := by
    rcases List.mem_append.mp hquery with h | h
    · obtain ⟨text, -, rfl⟩ := List.mem_map.mp h
      exact ⟨text, rfl⟩
    · split at h
      · obtain ⟨text, -, rfl⟩ := List.mem_map.mp h
        exact ⟨text, rfl⟩
      · cases h
  obtain ⟨text, rfl⟩ := hread
  exact Tree.queryOf_local _ source

namespace Extraction

open Candidates (Setting)
open Repository (Snapshot Place GitService)

/-- The candidates of a tree have their origins in nodes that a query in use names. -/
def FromTree (s : Setting) (queries : Queries) (o : Options) (root : Node)
    (candidates : List Chunk) : Prop :=
  ∀ c ∈ candidates, s.Origin (s.Captured (queries.used o) root) c

/-- The candidates that a tree has: structural chunks, and further ones after them. -/
structure Collected (s : Setting) (queries : Queries) (o : Options) (root : Node)
    (structural further : List Chunk) : Prop where
  structural_eq : s.structural queries root = .ok structural
  further_eq : furtherCandidates s queries o root structural = .ok further

/-- Challenges are made one by one from the selected candidates of a tree. -/
def MadeFrom (r : Registry) (o : Options) (s : Setting) (root : Node) (candidates : List Chunk)
    (made : List Challenge) : Prop :=
  (Selection.resolve r s.source (root.comments s.source s.language)
      (root.imports s.source s.language) candidates).mapM
    (Challenge.ofChunk · (root.comments s.source s.language) o s.source) = .ok made

/-- What is counted beside challenges that are made of candidates: the candidates, and those of them
that give no challenge. -/
structure Counted (candidates : List Chunk) (made : List Challenge) (count : Nat)
    (dropped : Int) : Prop where
  count_eq : count = candidates.length
  dropped_nonneg : 0 ≤ dropped
  count_eq_add : (count : Int) = dropped + made.length

/-- Each selected candidate gives one challenge. -/
theorem MadeFrom.length_eq {r : Registry} {o : Options} {s : Setting} {root : Node}
    {candidates : List Chunk} {made : List Challenge}
    (h : MadeFrom r o s root candidates made) :
    made.length = (Selection.resolve r s.source (root.comments s.source s.language)
      (root.imports s.source s.language) candidates).length :=
  (mapM_eq_ok_iff.mp h).length_eq.symm

/-- Challenges that are made from candidates of one path have this path, and ascend. -/
theorem MadeFrom.ascending {r : Registry} {o : Options} {s : Candidates.Setting}
    {root : Node} {candidates : List Chunk} {made : List Challenge}
    (hmade : MadeFrom r o s root candidates made) (hpath : ∀ c ∈ candidates, c.path = s.path) :
    made.Pairwise (fun a b => a.place < b.place) ∧ ∀ c ∈ made, c.filePath = s.path := by
  constructor
  · have hchunks := Selection.bestOf_ascending (r := r) (Selection.judged r s.source
      (root.comments s.source s.language) (root.imports s.source s.language) candidates)
    refine pairwise_of_mapM hmade hchunks fun {c d a b} hca hdb hlt => ?_
    have ha := (Challenge.ofChunk_eq_ok hca).1
    have hb := (Challenge.ofChunk_eq_ok hdb).1
    rw [Challenge.place, Challenge.place, ha.path_eq, ha.start_eq, ha.stop_eq, hb.path_eq,
      hb.start_eq, hb.stop_eq]
    exact hlt
  · intro a ha
    obtain ⟨c, hc, hca⟩ := exists_of_mem_mapM hmade ha
    rw [(Challenge.ofChunk_eq_ok hca).1.path_eq]
    exact hpath c (Selection.mem_of_mem_resolve hc)

/-- Further candidates are blocks and then the whole file, each if it is asked for. -/
theorem furtherCandidates_eq (s : Setting) (queries : Queries) (o : Options) (root : Node)
    (structural : List Chunk) :
    furtherCandidates s queries o root structural = (do
      let blocks ← (if o.includeBlocks then s.blocks queries root structural else .ok [])
      let file ← (if o.includeFileChunks && !root.label.hasError then s.wholeFile.map ([·])
        else .ok [])
      return blocks ++ file) := by
  unfold furtherCandidates
  split <;> split <;> rfl

theorem furtherCandidates_fromTree {s : Setting} {queries : Queries} {o : Options} {root : Node}
    {structural further : List Chunk} (hs : s.lines = LineMap.ofBytes s.source)
    (h : furtherCandidates s queries o root structural = .ok further) :
    FromTree s queries o root further := by
  rw [furtherCandidates_eq] at h
  obtain ⟨blocks, hblocks, h⟩ := bind_eq_ok_iff.mp h
  obtain ⟨file, hfile, h⟩ := bind_eq_ok_iff.mp h
  rw [← pure_eq_ok_iff.mp h]
  intro c hc
  rcases List.mem_append.mp hc with hc | hc
  · split at hblocks
    · rename_i hinclude
      refine (Setting.blocks_origin hs hblocks hc).mono fun n ⟨query, hquery, hn⟩ => ?_
      exact ⟨query, List.mem_append_right _ (by rwa [if_pos hinclude]), hn⟩
    · rw [← Except.ok.inj hblocks] at hc
      cases hc
  · split at hfile
    · obtain ⟨whole, hwhole, heq⟩ := map_eq_ok_iff.mp hfile
      rw [← heq] at hc
      rw [List.mem_singleton.mp hc]
      exact Setting.wholeFile_origin hs hwhole
    · rw [← Except.ok.inj hfile] at hc
      cases hc

theorem Collected.fromTree {s : Setting} {queries : Queries} {o : Options} {root : Node}
    {structural further : List Chunk} (hs : s.lines = LineMap.ofBytes s.source)
    (h : Collected s queries o root structural further) :
    FromTree s queries o root (structural ++ further) := by
  intro c hc
  rcases List.mem_append.mp hc with hc | hc
  · obtain ⟨found, hfound, hstructural⟩ := bind_eq_ok_iff.mp h.structural_eq
    refine (Setting.structural_origin hs hfound hstructural hc).mono ?_
    exact fun n ⟨query, hquery, hn⟩ => ⟨query, List.mem_append_left _ hquery, hn⟩
  · exact furtherCandidates_fromTree hs h.further_eq c hc

/-- What is made of candidates is made from the selected ones, and none of the others goes
uncounted. -/
theorem challengesOf_eq_ok {r : Registry} {o : Options} {s : Setting} {root : Node}
    {candidates : List Chunk} {count : Nat} {made : List Challenge} {dropped : Int}
    {messages : List Log.Message}
    (h : challengesOf r o s root candidates = .ok ⟨.challenges count made, dropped, messages⟩) :
    MadeFrom r o s root candidates made ∧ Counted candidates made count dropped := by
  unfold challengesOf at h
  split at h
  · cases h
  · obtain ⟨all, hall, h⟩ := bind_eq_ok_iff.mp h
    cases pure_eq_ok_iff.mp h
    have hmade : MadeFrom r o s root candidates made := mapError_eq_ok_iff.mp hall
    have hle := Selection.length_resolve_le (r := r) s.source (root.comments s.source s.language)
      (root.imports s.source s.language) candidates
    refine ⟨hmade, rfl, Int.sub_nonneg_of_le (Int.ofNat_le.mpr hle), ?_⟩
    rw [hmade.length_eq]
    exact (Int.sub_add_cancel _ _).symm

/-- The challenges of a tree are made from the candidates of the tree. -/
theorem processTree_eq_ok {r : Registry} {o : Options} {s : Setting} {queries : Queries}
    {root : Node} {count : Nat} {made : List Challenge} {dropped : Int}
    {messages : List Log.Message}
    (h : processTree r o s queries root = .ok ⟨.challenges count made, dropped, messages⟩) :
    ∃ structural further, Collected s queries o root structural further ∧
      MadeFrom r o s root (structural ++ further) made ∧
      Counted (structural ++ further) made count dropped := by
  obtain ⟨found, hfound, h⟩ := bind_eq_ok_iff.mp h
  obtain ⟨structural, hstructural, h⟩ := bind_eq_ok_iff.mp h
  obtain ⟨further, hfurther, h⟩ := bind_eq_ok_iff.mp h
  obtain ⟨processed, hprocessed, h⟩ := bind_eq_ok_iff.mp h
  rw [mapError_eq_ok_iff] at hfound hstructural hfurther
  refine ⟨structural, further, ⟨?_, hfurther⟩, ?_⟩
  · exact bind_eq_ok_iff.mpr ⟨found, hfound, hstructural⟩
  · obtain ⟨result, ofDropped, ofResult⟩ := processed
    cases pure_eq_ok_iff.mp h
    exact challengesOf_eq_ok hprocessed

/-- What becomes of a file that can be read depends on its content and on what git says about it. -/
theorem processFile_eq_processContent {t : Toolkit} {r : Registry} {o : Options}
    {snapshot : Snapshot} {root : Place} {git : Option GitService} {path : String} {l : Language}
    {content : List UInt8} (hread : snapshot.read? root path = some content) :
    processFile t r o snapshot root git path l =
      processContent t r o l path (binaryAnswer git path) content := by
  unfold Snapshot.read? at hread
  unfold processFile
  split at hread
  · cases hread
  · rename_i place hplace
    rw [hplace]
    split at hread
    · rename_i bytes hentry
      cases hread
      simp only [hentry]
    · cases hread

/-- A file that gives challenges can be read. -/
theorem exists_read_of_processFile {t : Toolkit} {r : Registry} {o : Options}
    {snapshot : Snapshot} {root : Place} {git : Option GitService} {path : String} {l : Language}
    {count : Nat} {made : List Challenge} {dropped : Int} {messages : List Log.Message}
    (h : processFile t r o snapshot root git path l =
      .ok ⟨.challenges count made, dropped, messages⟩) :
    ∃ content, snapshot.read? root path = some content := by
  unfold processFile at h
  split at h
  · cases h
  · cases h
  · rename_i place hplace
    split at h
    · rename_i content hentry
      refine ⟨content, ?_⟩
      simp only [Snapshot.read?, hplace, hentry]
    · cases h

/-- What becomes of a file that cannot be read depends on its path and on the limit for files. -/
theorem processFile_of_unread {t : Toolkit} {r : Registry} {o : Options} {snapshot : Snapshot}
    {root : Place} {git : Option GitService} {path : String} {l : Language}
    (hread : snapshot.read? root path = none) :
    processFile t r o snapshot root git path l =
      match snapshot.locate root path with
      | .error .nullCharacter => .error (.badPath path .nullCharacter)
      | .error _ => .ok (.skip .unreadable)
      | .ok _ =>
        .ok (.skip (if o.maxFileBytes < Snapshot.directorySize then .tooLarge else .unreadable)) := by
  unfold Snapshot.read? at hread
  unfold processFile
  split at hread
  · rename_i fault hfault
    rw [hfault]
    cases fault <;> rfl
  · rename_i place hplace
    rw [hplace]
    split at hread
    · cases hread
    · rename_i hentry
      dsimp only
      split
      · rename_i content hfile
        exact absurd hfile (hentry content)
      · rfl

/-- **A file that gives challenges** is text, and its challenges are made from the candidates of its
tree, all of which are counted. -/
theorem processFile_collected {t : Toolkit} {r : Registry} {o : Options} {snapshot : Snapshot}
    {root : Place} {git : Option GitService} {path : String} {l : Language} {count : Nat}
    {made : List Challenge} {dropped : Int} {messages : List Log.Message} {content : List UInt8}
    (h : processFile t r o snapshot root git path l =
      .ok ⟨.challenges count made, dropped, messages⟩)
    (hread : snapshot.read? root path = some content) :
    Text.Utf8.isValid content = true ∧
      ∃ patterns, Grammar.prepare t.grammars l = .ok patterns ∧
        ∃ structural further,
          Collected (.ofFile l path content) (patterns.queries content) o (t.parse l content)
            structural further ∧
          MadeFrom r o (.ofFile l path content) (t.parse l content) (structural ++ further)
            made ∧
          Counted (structural ++ further) made count dropped := by
  rw [processFile_eq_processContent hread] at h
  unfold processContent at h
  split at h
  · cases pure_eq_ok_iff.mp h
  · obtain ⟨binary, -, h⟩ := bind_eq_ok_iff.mp h
    split at h
    · cases pure_eq_ok_iff.mp h
    · split at h
      · cases pure_eq_ok_iff.mp h
      · rename_i hvalid
        obtain ⟨patterns, hpatterns, h⟩ := bind_eq_ok_iff.mp h
        exact ⟨by simpa using hvalid, patterns, mapError_eq_ok_iff.mp hpatterns,
          processTree_eq_ok h⟩

/-- Every candidate of a file that gives challenges has its origin in the tree. -/
theorem processFile_eq_ok {t : Toolkit} {r : Registry} {o : Options} {snapshot : Snapshot}
    {root : Place} {git : Option GitService} {path : String} {l : Language} {count : Nat}
    {made : List Challenge} {dropped : Int} {messages : List Log.Message} {content : List UInt8}
    (h : processFile t r o snapshot root git path l =
      .ok ⟨.challenges count made, dropped, messages⟩)
    (hread : snapshot.read? root path = some content) :
    Text.Utf8.isValid content = true ∧
      ∃ patterns, Grammar.prepare t.grammars l = .ok patterns ∧
        ∃ candidates,
          FromTree (.ofFile l path content) (patterns.queries content) o (t.parse l content)
            candidates ∧
          MadeFrom r o (.ofFile l path content) (t.parse l content) candidates made := by
  obtain ⟨hvalid, patterns, hpatterns, structural, further, hcollected, hmade, -⟩ :=
    processFile_collected h hread
  exact ⟨hvalid, patterns, hpatterns, structural ++ further, hcollected.fromTree rfl, hmade⟩

/-! ## What a file gives -/

/-- The challenges of what becomes of a file, if it gives any. -/
def madeIn : Except Fault Processed → List Challenge
  | .ok ⟨.challenges _ made, _, _⟩ => made
  | _ => []

theorem eq_ok_of_mem_madeIn {outcome : Except Fault Processed} {c : Challenge}
    (h : c ∈ madeIn outcome) :
    ∃ count dropped messages,
      outcome = .ok ⟨.challenges count (madeIn outcome), dropped, messages⟩ := by
  unfold madeIn at h ⊢
  split at h
  · exact ⟨_, _, _, rfl⟩
  · cases h

/-- What can be compared of what becomes of a file that gives challenges: the two counts, and what
`f` tells of the challenges. -/
def outline {α : Type} (f : Challenge → α) : Except Fault Processed → Option (Nat × Int × List α)
  | .ok ⟨.challenges count made, dropped, _⟩ => some (count, dropped, made.map f)
  | _ => none

theorem eq_ok_of_outline {α : Type} {f : Challenge → α} {outcome : Except Fault Processed}
    {count : Nat} {dropped : Int} {told : List α}
    (h : outline f outcome = some (count, dropped, told)) :
    ∃ made messages, outcome = .ok ⟨.challenges count made, dropped, messages⟩ ∧
      made.map f = told := by
  unfold outline at h
  split at h
  · cases h
    exact ⟨_, _, rfl, rfl⟩
  · cases h

/-! ## A small file -/

open Repository.Scanner (sampleLanguage sampleRegistry sampleContent sampleSnapshot sampleWorld
  sampleOptions sample_plain mixedSnapshot mixed_workTree)

/-- The tree of the small file: a definition with a definition and a comment in it, and in the inner
definition one that is too short to be kept. -/
def sampleTree : Node :=
  .mk ⟨0, "source", 0, 31, true, false, none⟩ [
    .mk ⟨1, "def", 0, 30, true, false, none⟩ [
      .mk ⟨2, "def", 10, 22, true, false, none⟩ [
        .mk ⟨3, "def", 14, 19, true, false, none⟩ []],
      .mk ⟨4, "comment", 23, 28, true, false, none⟩ []]]

/-- A toolkit that knows this tree. -/
def sampleToolkit : Toolkit :=
  ⟨Grammar.only ["sample"], fun _ _ => sampleTree⟩

theorem sample_wellFormed : sampleTree.WellFormed sampleContent := by
  refine ⟨?_, by decide +kernel, by decide +kernel⟩
  refine .mk (by decide) (by decide) (by decide) (List.forall_mem_singleton.mpr ?_)
  refine .mk (by decide) (by decide) (by decide) (List.forall_mem_cons.mpr ⟨?_, ?_⟩)
  · exact .mk (by decide) (by decide) (by decide)
      (List.forall_mem_singleton.mpr (.leaf (by decide)))
  · exact List.forall_mem_singleton.mpr (.leaf (by decide))

theorem sample_read : sampleSnapshot.read? ["r"] "a/b/f.sample" = some sampleContent := by
  have hentry : sampleSnapshot.entryAt (["r"] ++ ["a", "b", "f.sample"]) =
      some (.file sampleContent) := by decide
  have hjoin : Path.join ["a", "b", "f.sample"] = "a/b/f.sample" := by decide
  rw [← hjoin]
  exact sample_plain.read_join hentry

/-- The small file gives two challenges, of three candidates. -/
theorem sample_processed : ∃ made messages,
    processFile sampleToolkit sampleRegistry (sampleOptions []) sampleSnapshot ["r"]
      (some sampleWorld.git) "a/b/f.sample" sampleLanguage =
        .ok ⟨.challenges 3 made, 1, messages⟩ ∧
    made.map (fun c => (c.startByte, c.endByte)) = [(0, 30), (8, 22)] := by
  rw [processFile_eq_processContent sample_read]
  apply eq_ok_of_outline
  -- Sorting does not reduce; what sorts by evaluation takes its place.
  simp only [processContent, processText, processTree, challengesOf,
    Candidates.Setting.structuralOf, Candidates.Setting.collect, Selection.judged,
    Selection.bestOf, Span.sorted, Node.comments, Node.imports, Challenge.ofChunk,
    Challenge.commentRangesOf, mergeSort_eq_computedSort]
  decide +kernel

/-! ## Files of a mixed repository -/

theorem mixed_read {notes : List UInt8} {name : String} {content : List UInt8}
    (h : (mixedSnapshot notes).entryAt ["r", name] = some (.file content)) :
    (mixedSnapshot notes).read? ["r"] name = some content := by
  have hread := (mixed_workTree notes).plain.read_join h
  rwa [Path.join_singleton] at hread

/-- The files of the mixed repository with definitions give two challenges each, of three
candidates, if git leaves the question open whether they are binary. -/
theorem mixed_processed (notes : List UInt8) {git : Option GitService} {path : String}
    (hgit : BinaryContent.verdictOf (binaryAnswer git path) = .ok none)
    (h : path ∈ ["a.sample", "d.sample"]) :
    ∃ made messages, processFile sampleToolkit sampleRegistry (sampleOptions ["x.*"])
      (mixedSnapshot notes) ["r"] git path sampleLanguage =
        .ok ⟨.challenges 3 made, 1, messages⟩ ∧
    made.map (fun c => (c.filePath, c.startByte, c.endByte)) = [(path, 0, 30), (path, 8, 22)] := by
  have hentry : (mixedSnapshot notes).entryAt ["r", path] = some (.file sampleContent) := by
    simp only [List.mem_cons, List.not_mem_nil, or_false] at h
    rcases h with rfl | rfl
    · rfl
    · rfl
  rw [processFile_eq_processContent (mixed_read hentry)]
  apply eq_ok_of_outline
  -- Sorting does not reduce; what sorts by evaluation takes its place.
  simp only [processContent, BinaryContent.isBinary, hgit, processText, processTree, challengesOf,
    Candidates.Setting.structuralOf, Candidates.Setting.collect, Selection.judged,
    Selection.bestOf, Span.sorted, Node.comments, Node.imports, Challenge.ofChunk,
    Challenge.commentRangesOf, mergeSort_eq_computedSort]
  simp only [List.mem_cons, List.not_mem_nil, or_false] at h
  rcases h with rfl | rfl
  · decide +kernel
  · decide +kernel

/-- Its file with a null byte is binary. -/
theorem mixed_skipped (notes : List UInt8) {git : Option GitService}
    (hgit : BinaryContent.verdictOf (binaryAnswer git "b.sample") = .ok none) :
    processFile sampleToolkit sampleRegistry (sampleOptions ["x.*"]) (mixedSnapshot notes) ["r"]
      git "b.sample" sampleLanguage = .ok (.skip .binary) := by
  rw [processFile_eq_processContent (mixed_read rfl), processContent, BinaryContent.isBinary, hgit]
  rfl

end Extraction

end CodeChallenges

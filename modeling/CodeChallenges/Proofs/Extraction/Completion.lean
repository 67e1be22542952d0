import CodeChallenges.Extraction.Run
import CodeChallenges.Proofs.Candidates.Completion
import CodeChallenges.Proofs.Extraction.File
/-!
# No file fails

A file counts as failed if its processing stops with a fault that is not the grammar's.  Each fault
has its own cause: git cannot be asked properly, the path cannot be a path, or an offset of the tree
has no place in the file or cuts a character in two.  Without these causes every file is skipped
for a proper reason or gives challenges (`processFile_never_fails`), whatever its bytes are: the
tree matters only for a file that is text.
-/

namespace CodeChallenges

open CodeChallenges.Tree (Node Query)

/-- The queries of accepted patterns are local and have answers. -/
theorem Grammar.Patterns.local_answers (p : Grammar.Patterns) (source : List UInt8) :
    (∀ query ∈ (p.queries source).structural, query.Local ∧ query.Answers source) ∧
      ∀ query ∈ (p.queries source).blocks, query.Local ∧ query.Answers source := by
  have hquery : ∀ text, (queryOfText source text).Local ∧ (queryOfText source text).Answers source :=
    fun text => ⟨Tree.queryOf_local _ source, Tree.queryOf_answers _ source⟩
  constructor
  · intro query h
    obtain ⟨text, -, rfl⟩ := List.mem_map.mp h
    exact hquery text
  · intro query h
    obtain ⟨text, -, rfl⟩ := List.mem_map.mp h
    exact hquery text

/-- Comments begin and end between characters if the nodes of the tree do. -/
theorem Tree.Node.OnBoundaries.comments {source : List UInt8} {root : Node}
    (h : root.OnBoundaries source) (l : Language) :
    ∀ c ∈ root.comments source l,
      Text.Utf8.IsBoundary source c.start ∧ Text.Utf8.IsBoundary source c.stop := by
  intro c hc
  obtain ⟨n, hn, hspan⟩ := Node.exists_of_mem_sorted_extents hc
  obtain ⟨hstart, hstop, -⟩ := Node.span?_eq_some hspan
  rw [hstart, hstop]
  exact ⟨h.start_boundary n hn, h.stop_boundary n hn⟩

namespace Extraction

open Candidates (Setting)
open Repository (Snapshot Place GitService)
open Repository.Scanner (sampleLanguage sampleRegistry sampleSnapshot sampleWorld sampleOptions)

/-! ## Reasons -/

/-- The reasons for which a file is skipped without a fault. -/
def SkipReason.IsProper (reason : SkipReason) : Prop :=
  reason = .unreadable ∨ reason = .binary ∨ reason = .tooLarge ∨ reason = .unparseable

instance (reason : SkipReason) : Decidable reason.IsProper :=
  inferInstanceAs (Decidable (_ ∨ _ ∨ _ ∨ _))

/-- What a file gives says nothing of a failure. -/
def Yield.IsProper (yield : Yield) : Prop :=
  ∀ reason, yield = .skipped reason → reason.IsProper

theorem Yield.isProper_skipped {reason : SkipReason} (h : reason.IsProper) :
    (Yield.skipped reason).IsProper := by
  intro other heq
  cases heq
  exact h

theorem Yield.isProper_challenges (count : Nat) (made : List Challenge) :
    (Yield.challenges count made).IsProper := by
  intro reason heq
  cases heq

/-- A file that yields something proper does not count as failed. -/
theorem endingOf_ne_failed {processed : Processed} (h : processed.yield.IsProper) :
    endingOf (.ok processed) ≠ .skipped .failed := by
  intro heq
  obtain ⟨yield, dropped, messages⟩ := processed
  cases yield with
  | challenges count made => cases heq
  | skipped reason =>
      cases heq
      exact absurd (h .failed rfl) (by decide)

/-- A step that returns something proper. -/
def Succeeds (outcome : Except Fault Processed) : Prop :=
  ∃ processed, outcome = .ok processed ∧ processed.yield.IsProper

theorem succeeds_skip {reason : SkipReason} (h : reason.IsProper) :
    Succeeds (.ok (.skip reason)) :=
  ⟨_, rfl, Yield.isProper_skipped h⟩

theorem succeeds_bind {α : Type} {x : Except Fault α} {f : α → Except Fault Processed}
    (hx : ∃ a, x = .ok a) (hf : ∀ a, x = .ok a → Succeeds (f a)) : Succeeds (x >>= f) := by
  obtain ⟨a, ha⟩ := hx
  obtain ⟨processed, hok, hproper⟩ := hf a ha
  exact ⟨processed, bind_eq_ok_iff.mpr ⟨a, ha, hok⟩, hproper⟩

/-! ## From the tree to the file -/

section Tree

variable {r : Registry} {o : Options} {s : Setting} {root : Node}

/-- Candidates that begin and end between characters give challenges. -/
theorem challengesOf_succeeds {candidates : List Chunk} (hroot : root.OnBoundaries s.source)
    (hcandidates : ∀ c ∈ candidates,
      Text.Utf8.IsBoundary s.source c.span.start ∧ Text.Utf8.IsBoundary s.source c.span.stop) :
    Succeeds (challengesOf r o s root candidates) := by
  unfold challengesOf
  split
  · exact ⟨_, rfl, Yield.isProper_skipped (by decide)⟩
  · refine succeeds_bind (exists_mapError_eq_ok (exists_mapM_eq_ok fun c hc => ?_)) fun made _ => ?_
    · obtain ⟨hstart, hstop⟩ := hcandidates c (Selection.mem_of_mem_resolve hc)
      exact Challenge.exists_ofChunk_eq_ok o hstart hstop (hroot.comments s.language)
    · exact ⟨_, rfl, Yield.isProper_challenges _ _⟩

theorem exists_furtherCandidates_eq_ok {queries : Queries} (hs : s.lines = LineMap.ofBytes s.source)
    (hroot : root.OnBoundaries s.source)
    (hblocks : ∀ query ∈ queries.blocks, query.Local ∧ query.Answers s.source)
    (structural : List Chunk) :
    ∃ further, furtherCandidates s queries o root structural = .ok further := by
  rw [furtherCandidates_eq]
  refine exists_bind_eq_ok ?_ fun blocks _ => exists_bind_eq_ok ?_ fun file _ => ⟨_, rfl⟩
  · split
    · exact Setting.exists_blocks_eq_ok hs hroot (fun query h => (hblocks query h).1)
        (fun query h => (hblocks query h).2) structural
    · exact ⟨[], rfl⟩
  · split
    · exact exists_map_eq_ok (Setting.exists_wholeFile_eq_ok hs)
    · exact ⟨[], rfl⟩

/-- A tree between characters of a text has its challenges. -/
theorem processTree_succeeds {queries : Queries} (hs : s.lines = LineMap.ofBytes s.source)
    (hv : Text.Utf8.isValid s.source = true) (hroot : root.OnBoundaries s.source)
    (hstructural : ∀ query ∈ queries.structural, query.Local ∧ query.Answers s.source)
    (hblocks : ∀ query ∈ queries.blocks, query.Local ∧ query.Answers s.source) :
    Succeeds (processTree r o s queries root) := by
  have hlocal : ∀ query ∈ queries.used o, query.Local := by
    intro query hquery
    rcases List.mem_append.mp hquery with h | h
    · exact (hstructural query h).1
    · split at h
      · exact (hblocks query h).1
      · cases h
  unfold processTree
  refine succeeds_bind (exists_mapError_eq_ok ?_) fun found hfound => ?_
  · exact Candidates.exists_matchesOf_eq_ok (fun query h => (hstructural query h).2) hroot
  rw [mapError_eq_ok_iff] at hfound
  have hnodes := Candidates.mem_preorder_of_matchesOf (fun query h => (hstructural query h).1) hfound
  refine succeeds_bind (exists_mapError_eq_ok ?_) fun structural hstructuralOf => ?_
  · exact Setting.exists_structuralOf_eq_ok hs hroot.within hnodes
  rw [mapError_eq_ok_iff] at hstructuralOf
  refine succeeds_bind (exists_mapError_eq_ok ?_) fun further hfurther => ?_
  · exact exists_furtherCandidates_eq_ok hs hroot hblocks structural
  rw [mapError_eq_ok_iff] at hfurther
  have hcollected : Extraction.Collected s queries o root structural further :=
    ⟨bind_eq_ok_iff.mpr ⟨found, hfound, hstructuralOf⟩, hfurther⟩
  have hfrom := hcollected.fromTree hs
  have hcandidates := challengesOf_succeeds (r := r) (o := o) hroot fun c hc =>
    (hfrom c hc).isBoundary (fun n hn => hn.mem_preorder hlocal) hroot hv
  obtain ⟨processed, hok, hproper⟩ := hcandidates
  exact ⟨_, bind_eq_ok_iff.mpr ⟨_, hok, rfl⟩, hproper⟩

end Tree

section File

variable {t : Toolkit} {r : Registry} {o : Options} {l : Language} {path : String}

/-- Git can be asked about a file, or fails in a way that leaves the question open. -/
theorem exists_isBinary_eq_ok {answer : Option (Except Git.Failure String)}
    (h : ∀ failure, answer = some (.error failure) → failure.isHarmless = true)
    (content : Option (List UInt8)) :
    ∃ binary, BinaryContent.isBinary answer content = .ok binary := by
  refine exists_map_eq_ok ?_
  unfold BinaryContent.verdictOf
  split
  · exact ⟨none, rfl⟩
  · exact ⟨_, rfl⟩
  · rename_i failure
    rw [if_pos (h failure rfl)]
    exact ⟨none, rfl⟩

/-- Every content has its challenges or a proper reason to be skipped. -/
theorem processContent_succeeds {patterns : Grammar.Patterns}
    {answer : Option (Except Git.Failure String)} {content : List UInt8}
    (hpatterns : Grammar.prepare t.grammars l = .ok patterns)
    (hanswer : ∀ failure, answer = some (.error failure) → failure.isHarmless = true)
    (htree : Text.Utf8.isValid content = true → (t.parse l content).OnBoundaries content) :
    Succeeds (processContent t r o l path answer content) := by
  unfold processContent
  split
  · exact succeeds_skip (by decide)
  · refine succeeds_bind (exists_mapError_eq_ok (exists_isBinary_eq_ok hanswer _)) fun binary _ => ?_
    split
    · exact succeeds_skip (by decide)
    · split
      · exact succeeds_skip (by decide)
      · rename_i hvalid
        have hv : Text.Utf8.isValid content = true := by simpa using hvalid
        obtain ⟨hstructural, hblocks⟩ := patterns.local_answers content
        refine succeeds_bind ⟨patterns, mapError_eq_ok_iff.mpr hpatterns⟩ fun prepared hprepared => ?_
        rw [mapError_eq_ok_iff, hpatterns] at hprepared
        cases hprepared
        exact processTree_succeeds rfl hv (htree hv) hstructural hblocks

/-- What git says about a file is an answer or a harmless failure, unless git is asked for something
that cannot be asked. -/
theorem isHarmless_of_binaryAnswer {git : Option GitService}
    (hgit : ∀ g, git = some g → ∀ detail, g.binaryMark path ≠ .notStarted .badValue detail)
    {failure : Git.Failure} (h : binaryAnswer git path = some (.error failure)) :
    failure.isHarmless = true := by
  obtain ⟨g, hg, houtput⟩ := Option.map_eq_some_iff.mp h
  have hreply := hgit g hg
  cases hmark : g.binaryMark path with
  | exited code stdout stderr =>
      rw [hmark, Git.output] at houtput
      split at houtput
      · cases houtput
      · cases houtput
        rfl
  | missing =>
      rw [hmark] at houtput
      cases houtput
      rfl
  | notStarted fault detail =>
      rw [hmark] at houtput
      cases houtput
      cases fault with
      | badValue => exact absurd hmark (hreply detail)
      | system => rfl
      | runtime => rfl

/-- A place without a file that can be read is skipped. -/
theorem processFile_succeeds_of_unread {snapshot : Snapshot} {root : Place}
    {git : Option GitService} (hpath : Repository.holdsNull path = false)
    (hread : snapshot.read? root path = none) :
    Succeeds (processFile t r o snapshot root git path l) := by
  rw [processFile_of_unread hread]
  split
  · rename_i hnull
    exact absurd hnull (Snapshot.locate_ne_nullCharacter hpath)
  · exact succeeds_skip (by decide)
  · split
    · exact succeeds_skip (by decide)
    · exact succeeds_skip (by decide)

/-- **No file fails**: if the language is ready and git answers or fails without harm, then every
path below a root is skipped for a proper reason or gives challenges.  If there is a text at the
path, the nodes of its tree have to begin and end between characters. -/
theorem processFile_never_fails {snapshot : Snapshot} {root : Place} {git : Option GitService}
    {patterns : Grammar.Patterns}
    (hpath : Repository.holdsNull path = false)
    (hpatterns : Grammar.prepare t.grammars l = .ok patterns)
    (hgit : ∀ g, git = some g → ∀ detail, g.binaryMark path ≠ .notStarted .badValue detail)
    (htree : ∀ content, snapshot.read? root path = some content →
      Text.Utf8.isValid content = true → (t.parse l content).OnBoundaries content) :
    (∃ processed, processFile t r o snapshot root git path l = .ok processed ∧
      processed.yield.IsProper) ∧
      endingOf (processFile t r o snapshot root git path l) ≠ .skipped .failed := by
  have hsucceeds : Succeeds (processFile t r o snapshot root git path l) := by
    cases hread : snapshot.read? root path with
    | some content =>
        rw [processFile_eq_processContent hread]
        exact processContent_succeeds hpatterns (fun _ h => isHarmless_of_binaryAnswer hgit h)
          (htree content hread)
    | none => exact processFile_succeeds_of_unread hpath hread
  refine ⟨hsucceeds, ?_⟩
  obtain ⟨processed, hok, hproper⟩ := hsucceeds
  rw [hok]
  exact endingOf_ne_failed hproper

/-- The small file never fails, blocks and the whole file included. -/
theorem processFile_never_fails_sample :
    (∃ processed,
      processFile sampleToolkit sampleRegistry
        { sampleOptions [] with includeBlocks := true, includeFileChunks := true } sampleSnapshot
        ["r"] (some sampleWorld.git) "a/b/f.sample" sampleLanguage = .ok processed ∧
      processed.yield.IsProper) ∧
      endingOf (processFile sampleToolkit sampleRegistry
        { sampleOptions [] with includeBlocks := true, includeFileChunks := true } sampleSnapshot
        ["r"] (some sampleWorld.git) "a/b/f.sample" sampleLanguage) ≠ .skipped .failed := by
  obtain ⟨made, messages, hok, -⟩ := sample_processed
  obtain ⟨-, patterns, hpatterns, -⟩ := processFile_eq_ok hok sample_read
  refine processFile_never_fails (by decide) hpatterns ?_ ?_
  · intro g hg detail hmark
    cases hg
    cases hmark
  · intro content hread _
    rw [sample_read] at hread
    cases hread
    exact sample_wellFormed.onBoundaries

end File

end Extraction

end CodeChallenges

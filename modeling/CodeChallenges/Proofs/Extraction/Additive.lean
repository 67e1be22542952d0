import CodeChallenges.Proofs.Extraction.Blocks
import CodeChallenges.Proofs.Extraction.Completion
import CodeChallenges.Proofs.Registry
import CodeChallenges.Proofs.Selection.Additions
/-!
# Optional passes add challenges and change none

Blocks and the whole file are looked for only if the options ask for them.  Their candidates come
after the structural ones, and none of them supersedes a structural chunk: a block is never at the
place of one, and the whole file ranks last.  So the challenges that a file gives without the
optional passes are all there with them, in the same order, and the others come from blocks or are
the whole file (`processFile_extends`).
-/

namespace CodeChallenges

open CodeChallenges.Tree (Node)

/-- The same wishes without the optional passes. -/
def Options.structuralOnly (o : Options) : Options :=
  { o with includeBlocks := false, includeFileChunks := false }

namespace Extraction

open Candidates (Setting)
open Repository (Snapshot Place GitService)
open Repository.Scanner (sampleLanguage)

/-! ## Two outcomes side by side -/

/-- Of two outcomes the second gives the challenges of the first and possibly extra ones; a fault
of one is a fault of the other. -/
structure Extends (extra : Challenge → Prop) (plain full : Except Fault Processed) : Prop where
  error_iff : ∀ fault, plain = .error fault ↔ full = .error fault
  sublist : (madeIn plain).Sublist (madeIn full)
  mem_or_extra : ∀ c ∈ madeIn full, c ∈ madeIn plain ∨ extra c

section Extends

variable {extra : Challenge → Prop}

theorem Extends.refl (outcome : Except Fault Processed) : Extends extra outcome outcome :=
  ⟨fun _ => Iff.rfl, List.Sublist.refl _, fun _ hc => .inl hc⟩

theorem Extends.of_ok {plain full : Processed}
    (hsub : (madeIn (.ok plain)).Sublist (madeIn (.ok full)))
    (hextra : ∀ c ∈ madeIn (.ok full), c ∈ madeIn (.ok plain) ∨ extra c) :
    Extends extra (.ok plain) (.ok full) where
  error_iff := by
    intro fault
    exact iff_of_false (by simp) (by simp)
  sublist := hsub
  mem_or_extra := hextra

theorem Extends.mono {extra' : Challenge → Prop} {plain full : Except Fault Processed}
    (h : Extends extra plain full) (hextra : ∀ c, extra c → extra' c) :
    Extends extra' plain full :=
  ⟨h.error_iff, h.sublist, fun c hc => (h.mem_or_extra c hc).imp_right (hextra c)⟩

/-- A first step in common changes nothing. -/
theorem Extends.bind {α : Type} {x : Except Fault α} {f g : α → Except Fault Processed}
    (h : ∀ a, x = .ok a → Extends extra (f a) (g a)) : Extends extra (x >>= f) (x >>= g) := by
  cases x with
  | error fault => exact .refl _
  | ok a => exact h a rfl

/-- What is said first in both does not matter. -/
theorem Extends.telling {plain full : Except Fault Processed} (h : Extends extra plain full)
    (before : List Log.Message) :
    Extends extra (do let p ← plain; return { p with messages := before ++ p.messages })
      (do let p ← full; return { p with messages := before ++ p.messages }) := by
  have hmade : ∀ p : Processed,
      madeIn (.ok { p with messages := before ++ p.messages }) = madeIn (.ok p) := by
    rintro ⟨yield | made, dropped, messages⟩
    · rfl
    · rfl
  cases plain with
  | error fault =>
      rw [(h.error_iff fault).mp rfl]
      exact .refl _
  | ok p =>
      cases full with
      | error fault => cases (h.error_iff fault).mpr rfl
      | ok q =>
          refine .of_ok ?_ ?_
          · rw [hmade, hmade]
            exact h.sublist
          · rw [hmade, hmade]
            exact h.mem_or_extra

end Extends

/-! ## The tree -/

/-- A chunk that an optional pass finds: a block inside the structural chunks, or the whole file. -/
def IsFurther (s : Setting) (queries : Queries) (o : Options) (root : Node)
    (structural : List Chunk) (chunk : Chunk) : Prop :=
  (o.includeBlocks = true ∧ ∃ blocks, s.blocks queries root structural = .ok blocks ∧
    chunk ∈ blocks) ∨
  (o.includeFileChunks = true ∧ root.label.hasError = false ∧ s.wholeFile = .ok chunk)

section Tree

variable {r : Registry} {o : Options} {s : Setting} {queries : Queries} {root : Node}
  {structural further : List Chunk}

theorem isFurther_of_mem (h : furtherCandidates s queries o root structural = .ok further)
    {chunk : Chunk} (hc : chunk ∈ further) : IsFurther s queries o root structural chunk := by
  rw [furtherCandidates_eq] at h
  obtain ⟨blocks, hblocks, h⟩ := bind_eq_ok_iff.mp h
  obtain ⟨file, hfile, h⟩ := bind_eq_ok_iff.mp h
  rw [← pure_eq_ok_iff.mp h] at hc
  rcases List.mem_append.mp hc with hc | hc
  · split at hblocks
    · rename_i hinclude
      exact .inl ⟨hinclude, blocks, hblocks, hc⟩
    · rw [← Except.ok.inj hblocks] at hc
      cases hc
  · split at hfile
    · rename_i hinclude
      rw [Bool.and_eq_true, Bool.not_eq_true'] at hinclude
      obtain ⟨whole, hwhole, heq⟩ := map_eq_ok_iff.mp hfile
      rw [← heq, List.mem_singleton] at hc
      exact .inr ⟨hinclude.1, hinclude.2, hc ▸ hwhole⟩
    · rw [← Except.ok.inj hfile] at hc
      cases hc

/-- A chunk of an optional pass never supersedes a structural chunk. -/
theorem IsFurther.supersedes_eq_false {chunk b : Chunk}
    (h : IsFurther s queries o root structural chunk) (hs : s.lines = LineMap.ofBytes s.source)
    (hname : r.byName s.language.name = some s.language) (hlast : s.language.RanksFileLast)
    (hstructural : s.structural queries root = .ok structural) (hb : b ∈ structural)
    (hplace : b.place = chunk.place) : Selection.supersedes r chunk b = false := by
  rcases h with ⟨-, blocks, hblocks, hc⟩ | ⟨-, -, hwhole⟩
  · exact absurd (Chunk.place_eq_iff.mp hplace).2 (Setting.range_ne_of_mem_blocks hs hblocks hc hb)
  · obtain ⟨capture, hkind⟩ := Setting.exists_chunkTypeFor_of_mem_structural hstructural hb
    have hrank : s.language.rank b.chunkType ≤ s.language.rank .file := hlast capture _ hkind
    obtain ⟨span, -, hchunk⟩ := bind_eq_ok_iff.mp hwhole
    have hlanguage : r.byName chunk.language = some s.language := by
      rw [← pure_eq_ok_iff.mp hchunk]
      exact hname
    have hfile : chunk.chunkType = .file := by
      rw [← pure_eq_ok_iff.mp hchunk]
      rfl
    rw [Selection.supersedes, hlanguage, decide_eq_false_iff_not]
    show ¬ s.language.rank chunk.chunkType < s.language.rank b.chunkType
    rw [hfile]
    exact Nat.not_lt.mpr hrank

/-- What is made of candidates is made from the selected ones; of no candidates nothing is made. -/
theorem madeFrom_of_challengesOf {candidates : List Chunk} {processed : Processed}
    (h : challengesOf r o s root candidates = .ok processed) :
    MadeFrom r o s root candidates (madeIn (.ok processed)) := by
  unfold challengesOf at h
  split at h
  · rename_i hnone
    rw [Bool.and_eq_true, List.isEmpty_iff] at hnone
    cases h
    rw [hnone.2, MadeFrom, Selection.resolve_nil]
    rfl
  · obtain ⟨made, hmade, h⟩ := bind_eq_ok_iff.mp h
    rw [← pure_eq_ok_iff.mp h]
    exact mapError_eq_ok_iff.mp hmade

/-- **Further candidates only add challenges**, if they supersede no earlier candidate. -/
theorem challengesOf_extends (hroot : root.OnBoundaries s.source)
    (hcandidates : ∀ c ∈ structural ++ further,
      Text.Utf8.IsBoundary s.source c.span.start ∧ Text.Utf8.IsBoundary s.source c.span.stop)
    (hbelow : ∀ c ∈ further, ∀ b ∈ structural, b.place = c.place →
      Selection.supersedes r c b = false) :
    Extends (fun c => ∃ chunk ∈ further,
        Challenge.ofChunk chunk (root.comments s.source s.language) o s.source = .ok c)
      (challengesOf r o s root structural) (challengesOf r o s root (structural ++ further)) := by
  obtain ⟨plain, hplain, -⟩ := challengesOf_succeeds (r := r) (o := o) hroot
    (fun c hc => hcandidates c (List.mem_append_left further hc))
  obtain ⟨full, hfull, -⟩ := challengesOf_succeeds (r := r) (o := o) hroot hcandidates
  have hmade := madeFrom_of_challengesOf hplain
  have hmade' := madeFrom_of_challengesOf hfull
  rw [hplain, hfull]
  obtain ⟨hsub, hselected⟩ := Selection.bestOf_judged_append (r := r) s.source
    (root.comments s.source s.language) (root.imports s.source s.language) hbelow
  refine .of_ok ?_ ?_
  · obtain ⟨fewer, hfewer, hle⟩ := exists_sublist_of_mapM hsub hmade'
    rw [MadeFrom, Selection.resolve, hfewer] at hmade
    rwa [← Except.ok.inj hmade]
  · intro c hc
    obtain ⟨chunk, hchunk, hok⟩ := exists_of_mem_mapM hmade' hc
    rcases hselected chunk hchunk with hplainly | hfurther
    · obtain ⟨d, hd, hok'⟩ := exists_mem_of_mapM hmade hplainly
      rw [hok] at hok'
      exact .inl (Except.ok.inj hok' ▸ hd)
    · exact .inr ⟨chunk, (Selection.mem_judged_iff.mp hfurther).1, hok⟩

/-- **The optional passes over a tree** only add challenges. -/
theorem processTree_extends (hs : s.lines = LineMap.ofBytes s.source)
    (hv : Text.Utf8.isValid s.source = true) (hroot : root.OnBoundaries s.source)
    (hqueries : ∀ query ∈ queries.structural, query.Local)
    (hblocks : ∀ query ∈ queries.blocks, query.Local ∧ query.Answers s.source)
    (hname : r.byName s.language.name = some s.language) (hlast : s.language.RanksFileLast) :
    Extends (fun c => ∃ structural chunk, s.structural queries root = .ok structural ∧
        IsFurther s queries o root structural chunk ∧
        Challenge.ofChunk chunk (root.comments s.source s.language) o s.source = .ok c)
      (processTree r o.structuralOnly s queries root) (processTree r o s queries root) := by
  unfold processTree
  refine .bind fun found hfound => .bind fun structural hstructuralOf => ?_
  rw [mapError_eq_ok_iff] at hfound hstructuralOf
  have hstructural : s.structural queries root = .ok structural :=
    bind_eq_ok_iff.mpr ⟨found, hfound, hstructuralOf⟩
  obtain ⟨further, hfurther⟩ := exists_furtherCandidates_eq_ok (o := o) hs hroot hblocks structural
  have hlocal : ∀ query ∈ queries.used o, query.Local := by
    intro query hquery
    rcases List.mem_append.mp hquery with hquery | hquery
    · exact hqueries query hquery
    · split at hquery
      · exact (hblocks query hquery).1
      · cases hquery
  have hcollected : Collected s queries o root structural further := ⟨hstructural, hfurther⟩
  have hboundaries : ∀ c ∈ structural ++ further,
      Text.Utf8.IsBoundary s.source c.span.start ∧ Text.Utf8.IsBoundary s.source c.span.stop :=
    fun c hc => (hcollected.fromTree hs c hc).isBoundary
      (fun n hn => hn.mem_preorder hlocal) hroot hv
  have hextends := challengesOf_extends (r := r) (o := o) hroot hboundaries
    (fun c hc b hb => (isFurther_of_mem hfurther hc).supersedes_eq_false hs hname hlast
      hstructural hb)
  have hplain : furtherCandidates s queries o.structuralOnly root structural = .ok [] := rfl
  rw [hplain, hfurther]
  show Extends _ (challengesOf r o s root (structural ++ []) >>= _)
    (challengesOf r o s root (structural ++ further) >>= _)
  rw [List.append_nil]
  refine (hextends.mono ?_).telling _
  rintro c ⟨chunk, hchunk, hok⟩
  exact ⟨structural, chunk, hstructural, isFurther_of_mem hfurther hchunk, hok⟩

end Tree

/-! ## The file -/

section File

variable {t : Toolkit} {r : Registry} {o : Options} {l : Language} {path : String}

/-- A challenge is made of a chunk that an optional pass finds in a content. -/
def IsAddition (t : Toolkit) (o : Options) (l : Language) (path : String) (content : List UInt8)
    (c : Challenge) : Prop :=
  ∃ patterns structural chunk, Grammar.prepare t.grammars l = .ok patterns ∧
    (Setting.ofFile l path content).structural (patterns.queries content) (t.parse l content) =
      .ok structural ∧
    IsFurther (.ofFile l path content) (patterns.queries content) o (t.parse l content) structural
      chunk ∧
    Challenge.ofChunk chunk ((t.parse l content).comments content l) o content = .ok c

theorem processContent_extends {answer : Option (Except Git.Failure String)} {content : List UInt8}
    (hname : r.byName l.name = some l) (hlast : l.RanksFileLast)
    (htree : Text.Utf8.isValid content = true → (t.parse l content).OnBoundaries content) :
    Extends (IsAddition t o l path content)
      (processContent t r o.structuralOnly l path answer content)
      (processContent t r o l path answer content) := by
  unfold processContent
  show Extends _ (if o.maxFileBytes < content.length then _ else _) _
  split
  · exact .refl _
  · refine .bind fun binary _ => ?_
    split
    · exact .refl _
    · split
      · exact .refl _
      · rename_i hvalid
        rw [Bool.not_eq_true', Bool.not_eq_false] at hvalid
        refine .bind fun patterns hpatterns => ?_
        rw [mapError_eq_ok_iff] at hpatterns
        obtain ⟨hstructural, hblocks⟩ := patterns.local_answers content
        have hlocal : ∀ query ∈ (patterns.queries content).structural, query.Local :=
          fun query hquery => (hstructural query hquery).1
        refine (processTree_extends (s := .ofFile l path content) rfl hvalid (htree hvalid) hlocal
          hblocks hname hlast).mono ?_
        rintro c ⟨structural, chunk, hstructural, hfurther, hok⟩
        exact ⟨patterns, structural, chunk, hpatterns, hstructural, hfurther, hok⟩

/-- **Optional passes are additive**: for a language that is found by its own name and ranks the
whole file last, the challenges of a file without blocks and whole-file chunks are, in the same order,
among those with any wishes about the two, and each of the others is made of a block or of the
whole file.  The built-in languages are such languages. -/
theorem processFile_extends {snapshot : Snapshot} {root : Place} {git : Option GitService}
    (hname : r.byName l.name = some l) (hlast : l.RanksFileLast)
    (htree : ∀ content, snapshot.read? root path = some content →
      Text.Utf8.isValid content = true → (t.parse l content).OnBoundaries content) :
    Extends (fun c => ∃ content, snapshot.read? root path = some content ∧
        IsAddition t o l path content c)
      (processFile t r o.structuralOnly snapshot root git path l)
      (processFile t r o snapshot root git path l) ∧
    ∀ b ∈ Registry.builtIn.languages,
      Registry.builtIn.byName b.name = some b ∧ b.RanksFileLast := by
  refine ⟨?_, fun b hb => ⟨Registry.byName_builtIn hb, BuiltIn.ranksFileLast hb⟩⟩
  cases hread : snapshot.read? root path with
  | none =>
      rw [processFile_of_unread hread, processFile_of_unread hread]
      exact .refl _
  | some content =>
      rw [processFile_eq_processContent hread, processFile_eq_processContent hread]
      refine (processContent_extends hname hlast (htree content hread)).mono ?_
      intro c hextra
      exact ⟨content, rfl, hextra⟩

end File

/-- The wishes for everything that can be found in the small file with a loop. -/
def loopOptions : Options :=
  { includeBlocks := true, includeFileChunks := true }

/-- What the small file with a loop gives. -/
def loopOutcome (o : Options) : Except Fault Processed :=
  processFile loopToolkit ⟨[loopLanguage]⟩ o loopSnapshot ["r"] none "f.sample" loopLanguage

/-- The places and kinds of the challenges of the small file with a loop. -/
def loopPlaces (o : Options) : List (Int × Int × ChunkType) :=
  (madeIn (loopOutcome o)).map fun c => (c.startByte, c.endByte, c.chunkType)

/-- Without the optional passes the file with a loop gives its definition, and with them the loop
and the whole file besides. -/
theorem loopPlaces_eq :
    loopPlaces loopOptions.structuralOnly = [(0, 47, .function)] ∧
    loopPlaces loopOptions = [(0, 48, .file), (0, 47, .function), (8, 45, .loop)] := by
  rw [loopPlaces, loopPlaces, loopOutcome, loopOutcome, processFile_eq_processContent loop_read,
    processFile_eq_processContent loop_read]
  simp only [processContent, processText, processTree, furtherCandidates, challengesOf,
    Setting.structuralOf, Setting.blocks, Setting.blocksWithin, Setting.collect, Selection.judged,
    Selection.bestOf, Span.sorted, Node.comments, Node.imports, Challenge.ofChunk,
    Challenge.commentRangesOf, mergeSort_eq_computedSort]
  decide +kernel

/-- The loop and the whole file are additions to the definition. -/
theorem processFile_extends_sample :
    loopPlaces loopOptions.structuralOnly = [(0, 47, .function)] ∧
    loopPlaces loopOptions = [(0, 48, .file), (0, 47, .function), (8, 45, .loop)] ∧
    (⟨[loopLanguage]⟩ : Registry).byName loopLanguage.name = some loopLanguage ∧
    loopLanguage.RanksFileLast ∧ loopTree.OnBoundaries loopContent ∧
    Extends (fun c => ∃ content, loopSnapshot.read? ["r"] "f.sample" = some content ∧
        IsAddition loopToolkit loopOptions loopLanguage "f.sample" content c)
      (loopOutcome loopOptions.structuralOnly) (loopOutcome loopOptions) := by
  have hkeyed : Registry.Keyed ⟨[loopLanguage]⟩ := List.nodup_singleton _
  have hname : (⟨[loopLanguage]⟩ : Registry).byName loopLanguage.name = some loopLanguage :=
    Registry.byName_of_last hkeyed (List.nil_append _).symm
  have hlast : loopLanguage.RanksFileLast := Language.ranksFileLast_of_captures (by decide)
  refine ⟨loopPlaces_eq.1, loopPlaces_eq.2, hname, hlast, loop_onBoundaries, ?_⟩
  refine (processFile_extends hname hlast ?_).1
  intro content hread _
  rw [loop_read] at hread
  rw [← Option.some.inj hread]
  exact loop_onBoundaries

end Extraction

end CodeChallenges

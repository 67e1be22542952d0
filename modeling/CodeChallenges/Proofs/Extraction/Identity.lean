import CodeChallenges.Proofs.Challenge.Identity
import CodeChallenges.Proofs.Extraction.Schedule
/-!
# Identities of challenges

The identity of a challenge is the digest of its path, its byte range and its kind.  No two
challenges of a run share a path and a byte range, so all the digested texts differ, and the
identities differ exactly if the digest keeps these texts apart
(`identities_nodup_iff_no_collision`).
-/

namespace CodeChallenges.Extraction

open Repository (Snapshot Place GitService)
open Repository.Scanner (sampleOptions sampleScanner sampleLanguage sampleRegistry sampleSnapshot
  sampleWorld)

/-- The challenges of a file have the digests of their own texts as identities. -/
theorem id_of_mem_madeIn {t : Toolkit} {r : Registry} {o : Options} {snapshot : Snapshot}
    {root : Place} {git : Option GitService} {path : String} {l : Language} {c : Challenge}
    (hc : c ∈ madeIn (processFile t r o snapshot root git path l)) :
    c.id = Sha256.hexDigest c.ownBytes := by
  obtain ⟨count, dropped, messages, hok⟩ := eq_ok_of_mem_madeIn hc
  obtain ⟨content, hread⟩ := exists_read_of_processFile hok
  obtain ⟨-, patterns, -, candidates, -, hmade⟩ := processFile_eq_ok hok hread
  obtain ⟨chunk, -, hofChunk⟩ := exists_of_mem_mapM hmade hc
  exact Challenge.ofChunk_id hofChunk

theorem Job.id_of_mem_made {j : Job} {cancelled : Task → Bool} {tasks : List Task} {c : Challenge}
    (hc : c ∈ j.made cancelled tasks) : c.id = Sha256.hexDigest c.ownBytes := by
  obtain ⟨task, -, hc⟩ := List.mem_flatMap.mp hc
  split at hc
  · cases hc
  · exact id_of_mem_madeIn hc

/-- Challenges at distinct places have distinct texts for their identities. -/
theorem nodup_ownBytes {challenges : List Challenge}
    (h : challenges.Pairwise (fun a b => a.place < b.place)) :
    (challenges.map Challenge.ownBytes).Nodup := by
  rw [List.nodup_iff_pairwise_ne, List.pairwise_map]
  refine h.imp fun {a b} hlt heq => ?_
  obtain ⟨hpath, hstart, hstop, -⟩ := Challenge.idBytes_inj.mp heq
  exact absurd (placeKey_eq_iff.mpr ⟨hpath, hstart, hstop⟩) (ne_of_lt hlt)

/-- **Identities tell challenges apart.**  The digested text determines the path, the byte range and
the kind that it was made of.  Every challenge that a run returns has the digest of its text as its
identity, and no two have the same one exactly if the digest does not collide on their texts. -/
theorem identities_nodup_iff_no_collision :
    (∀ path path' start start' stop stop' chunkType chunkType',
      Challenge.idBytes path start stop chunkType =
          Challenge.idBytes path' start' stop' chunkType' ↔
        path = path' ∧ start = start' ∧ stop = stop' ∧ chunkType = chunkType') ∧
    ∀ (e : Surroundings) root o schedule log harvest log',
      (extractWith e root o schedule).run log = (.ok harvest, log') →
      (∀ c ∈ harvest.challenges, c.id = Sha256.hexDigest c.ownBytes) ∧
      ((harvest.challenges.map (·.id)).Nodup ↔
        ∀ a ∈ harvest.challenges.map Challenge.ownBytes,
          ∀ b ∈ harvest.challenges.map Challenge.ownBytes,
            Sha256.hexDigest a = Sha256.hexDigest b → a = b) := by
  refine ⟨fun _ _ _ _ _ _ _ _ => Challenge.idBytes_inj, ?_⟩
  intro e root o schedule log harvest log' hrun
  obtain ⟨scanner, scan, hready, -, rfl⟩ := extractWith_eq_ok_iff.mp ⟨log', hrun⟩
  have hfound := Repository.Scanner.found_ascending hready.scanned
  rw [Job.challenges_harvest _ schedule hfound]
  have hids : ∀ c ∈ (e.job scanner).made schedule.cancelled (tasksOf scan.found),
      c.id = Sha256.hexDigest c.ownBytes := fun c hc => Job.id_of_mem_made hc
  refine ⟨hids, ?_⟩
  have hdigests : ((e.job scanner).made schedule.cancelled (tasksOf scan.found)).map (·.id) =
      (((e.job scanner).made schedule.cancelled (tasksOf scan.found)).map
        Challenge.ownBytes).map Sha256.hexDigest := by
    rw [List.map_map]
    exact List.map_congr_left hids
  rw [hdigests]
  exact List.nodup_map_iff_inj_on (nodup_ownBytes (Job.made_ascending _ _ hfound))

/-! ## A small run -/

/-- The challenges of the small file. -/
def sampleMade : List Challenge :=
  madeIn (processFile sampleToolkit sampleRegistry (sampleOptions []) sampleSnapshot ["r"]
    (some sampleWorld.git) "a/b/f.sample" sampleLanguage)

/-- There are two of them, at two places of the file. -/
theorem sampleMade_places :
    sampleMade.map (fun c => (c.filePath, c.startByte, c.endByte, c.chunkType)) =
      [("a/b/f.sample", 0, 30, .function), ("a/b/f.sample", 8, 22, .function)] := by
  rw [sampleMade, processFile_eq_processContent sample_read]
  -- Sorting does not reduce; what sorts by evaluation takes its place.
  simp only [processContent, processText, processTree, challengesOf,
    Candidates.Setting.structuralOf, Candidates.Setting.collect, Selection.judged,
    Selection.bestOf, Span.sorted, Tree.Node.comments, Tree.Node.imports, Challenge.ofChunk,
    Challenge.commentRangesOf, mergeSort_eq_computedSort]
  decide +kernel

/-- The texts for their identities. -/
theorem sampleMade_ownBytes :
    sampleMade.map Challenge.ownBytes =
      [Challenge.idBytes "a/b/f.sample" 0 30 .function,
        Challenge.idBytes "a/b/f.sample" 8 22 .function] := by
  have hplaces : sampleMade.map Challenge.ownBytes =
      (sampleMade.map (fun c => (c.filePath, c.startByte, c.endByte, c.chunkType))).map
        (fun p => Challenge.idBytes p.1 p.2.1 p.2.2.1 p.2.2.2) := by
    rw [List.map_map]
    rfl
  rw [hplaces, sampleMade_places]
  rfl

/-- The run over the small repository returns these challenges. -/
theorem sampleMade_returned : ∃ harvest log',
    (extractWith sampleSurroundings "/r" (sampleOptions []) (.inOrder fun _ => false)).run [] =
      (.ok harvest, log') ∧ harvest.challenges = sampleMade :=
  sample_returns none _ rfl

/-- The two challenges of the small run have two identities. -/
theorem identities_nodup_iff_no_collision_sample : ∃ harvest log',
    (extractWith sampleSurroundings "/r" (sampleOptions []) (.inOrder fun _ => false)).run [] =
      (.ok harvest, log') ∧
    harvest.challenges.length = 2 ∧ (harvest.challenges.map (·.id)).Nodup := by
  obtain ⟨harvest, log', hrun, hmade⟩ := sampleMade_returned
  refine ⟨harvest, log', hrun, ?_, ?_⟩
  · rw [hmade, ← List.length_map Challenge.ownBytes, sampleMade_ownBytes]
    rfl
  · refine (identities_nodup_iff_no_collision.2 _ _ _ _ _ _ _ hrun).2.mpr ?_
    rw [hmade, sampleMade_ownBytes]
    decide +kernel

end CodeChallenges.Extraction

import CodeChallenges.Proofs.Extraction.Blocks
import CodeChallenges.Proofs.Extraction.Schedule
import CodeChallenges.Proofs.Repository.Fingerprint
/-!
# A fingerprint stands for the challenges

Without git nothing but the contents of the chosen files comes from the repository into its
challenges.  The stream of a fingerprint tells the chosen files with their contents, so two states
with one stream have the same challenges (`fingerprint_determines_challenges`).  The stream does not
tell a file that cannot be read from an empty one, and neither gives challenges.

That a run over one state returns at all if a run over the other does needs more: what is fatal is a
language that is not ready, and it is noticed with any content, an empty one too.  But every chosen
file can be read.
-/

namespace CodeChallenges

/-- Nothing of an empty source is kept: it is too short. -/
theorem Selection.dropReason_of_empty (chunk : Chunk) (comments masked : List Span)
    (language : Option Language) : dropReason chunk [] comments masked language ≠ none := by
  have hslice : slice ([] : List UInt8) chunk.span.start chunk.span.stop = [] := by
    rw [slice, List.take_nil, List.drop_nil]
  have hshort : (Text.trim (Text.Utf8.decodeLossy
      (slice ([] : List UInt8) chunk.span.start chunk.span.stop))).length < minChars := by
    have htext : Text.Utf8.decodeLossy [] = [] := Text.Utf8.decodeLossy_encode []
    rw [hslice, htext]
    decide
  unfold dropReason
  dsimp only
  rw [if_pos hshort]
  split
  · exact Option.some_ne_none _
  · exact Option.some_ne_none _

namespace Extraction

open Repository (Snapshot Place GitService World Scanner FitsFrames fingerprintStream fingerprint)

/-! ## The challenges of a file and its content -/

section File

variable {t : Toolkit} {r : Registry} {o : Options} {s s' : Snapshot} {root root' : Place}
  {git : Option GitService} {path : String} {l : Language}

theorem madeIn_of_unread (hread : s.read? root path = none) :
    madeIn (processFile t r o s root git path l) = [] := by
  rw [List.eq_nil_iff_forall_not_mem]
  intro c hc
  obtain ⟨count, dropped, messages, hok⟩ := eq_ok_of_mem_madeIn hc
  obtain ⟨content, hcontent⟩ := exists_read_of_processFile hok
  rw [hread] at hcontent
  cases hcontent

theorem madeIn_of_empty (hread : s.read? root path = some []) :
    madeIn (processFile t r o s root git path l) = [] := by
  rw [List.eq_nil_iff_forall_not_mem]
  intro c hc
  obtain ⟨count, dropped, messages, hok⟩ := eq_ok_of_mem_madeIn hc
  obtain ⟨-, patterns, -, candidates, -, hmade⟩ := processFile_eq_ok hok hread
  obtain ⟨chunk, -, hkept⟩ := hmade.exists_kept hc
  exact Selection.dropReason_of_empty chunk _ _ _ (Selection.mem_judged_iff.mp hkept).2

/-- Without git, files with the same content give the same challenges, also if one of them is empty
and the other cannot be read. -/
theorem madeIn_processFile_congr
    (h : (s.read? root path).getD [] = (s'.read? root' path).getD []) :
    madeIn (processFile t r o s root none path l) =
      madeIn (processFile t r o s' root' none path l) := by
  cases hread : s.read? root path with
  | none =>
      rw [madeIn_of_unread hread]
      cases hread' : s'.read? root' path with
      | none => rw [madeIn_of_unread hread']
      | some content =>
          rw [hread, hread', Option.getD_none, Option.getD_some] at h
          rw [madeIn_of_empty (h ▸ hread')]
  | some content =>
      cases hread' : s'.read? root' path with
      | none =>
          rw [hread, hread', Option.getD_none, Option.getD_some] at h
          rw [madeIn_of_unread hread', madeIn_of_empty (h ▸ hread)]
      | some content' =>
          rw [hread, hread', Option.getD_some, Option.getD_some] at h
          rw [processFile_eq_processContent hread, processFile_eq_processContent hread', h]

/-- Nothing about a file that cannot be read is fatal. -/
theorem fatal_of_unread (hread : s.read? root path = none) :
    (endingOf (processFile t r o s root git path l)).fatal? = none := by
  rw [processFile_of_unread hread]
  split
  · rfl
  · rfl
  · rfl

/-- Without git, what is fatal about a file is a matter of its content, if it can be read. -/
theorem fatal_processFile_congr
    (h : (s.read? root path).getD [] = (s'.read? root' path).getD [])
    (hfile : s.isFile root path = s'.isFile root' path) :
    (endingOf (processFile t r o s root none path l)).fatal? =
      (endingOf (processFile t r o s' root' none path l)).fatal? := by
  unfold Snapshot.isFile at hfile
  cases hread : s.read? root path with
  | none =>
      rw [hread, Option.isSome_none, eq_comm, Option.isSome_eq_false_iff,
        Option.isNone_iff_eq_none] at hfile
      rw [fatal_of_unread hread, fatal_of_unread hfile]
  | some content =>
      rw [hread, Option.isSome_some, eq_comm, Option.isSome_iff_exists] at hfile
      obtain ⟨content', hread'⟩ := hfile
      rw [hread, hread', Option.getD_some, Option.getD_some] at h
      rw [processFile_eq_processContent hread, processFile_eq_processContent hread', h]

end File

/-! ## The challenges of a run -/

/-- A state of a repository is opened and scanned without git, and its files fit the stream. -/
structure ScansPlainly (w : World) (root : String) (r : Registry) (o : Options)
    (scanner : Scanner) (scan : Scanner.Outcome) : Prop where
  opened : ∃ warnings, Scanner.open w root o none = .ok (scanner, warnings)
  scanned : scanner.run r none = .ok scan
  without_git : scanner.usesGit = false
  fits : ∀ file ∈ scanner.contents scan.found, FitsFrames file

section Run

variable {e : Surroundings} {w w' : World} {root root' : String} {o : Options}
  {scanner scanner' : Scanner} {scan scan' : Scanner.Outcome} {schedule : Schedule}

theorem ScansPlainly.options_eq {r : Registry} (h : ScansPlainly w root r o scanner scan) :
    scanner.options = o := by
  obtain ⟨warnings, hopen⟩ := h.opened
  exact (Scanner.open_eq_ok hopen).2.2.1

/-- The fingerprint of a state that is scanned is the digest of its stream. -/
theorem ScansPlainly.fingerprint_eq {r : Registry} (h : ScansPlainly w root r o scanner scan) :
    fingerprint w r root o =
      .ok (Sha256.hexDigest (fingerprintStream (scanner.contents scan.found))) := by
  obtain ⟨warnings, hopen⟩ := h.opened
  rw [fingerprint, hopen]
  show (scanner.run r none).mapError _ >>= _ = _
  rw [h.scanned]
  rfl

/-- A run over a scanned state comes to its tasks with this scan. -/
theorem ScansPlainly.ready_unique {scanner₁ : Scanner} {scan₁ : Scanner.Outcome}
    (h : ScansPlainly w root e.registry o scanner scan)
    (hready : Ready { e with world := w } root o scanner₁ scan₁) :
    scanner₁ = scanner ∧ scan₁ = scan := by
  obtain ⟨warnings, hopen⟩ := h.opened
  obtain ⟨warnings₁, hopen₁⟩ := hready.opened
  rw [hopen] at hopen₁
  cases hopen₁
  have hscanned := hready.scanned
  rw [h.scanned] at hscanned
  cases hscanned
  exact ⟨rfl, rfl⟩

/-- The tasks of a run are its chosen files. -/
theorem mem_found_of_mem_tasksOf {found : List (String × Language)} {task : Task}
    (h : task ∈ tasksOf found) : (task.path, task.language) ∈ found := by
  obtain ⟨⟨f, index⟩, hf, rfl⟩ := List.mem_map.mp h
  exact List.fst_mem_of_mem_zipIdx hf

/-- Without git a job asks git about no file. -/
theorem ScansPlainly.process_eq (h : ScansPlainly w root e.registry o scanner scan) (task : Task) :
    (e.job scanner).process task =
      processFile e.toolkit e.registry o scanner.world.snapshot scanner.root none task.path
        task.language := by
  have hgit : (e.job scanner).git = none := by
    rw [Job.git]
    exact if_neg (by rw [Surroundings.job, h.without_git]; exact Bool.false_ne_true)
  rw [Job.process, hgit]
  show processFile _ _ scanner.options _ _ _ _ _ = _
  rw [h.options_eq]
  rfl

/-- States with the same contents of their chosen files have the same challenges. -/
theorem ScansPlainly.made_eq (h : ScansPlainly w root e.registry o scanner scan)
    (h' : ScansPlainly w' root' e.registry o scanner' scan')
    (hcontents : ∀ f ∈ scan.found, scanner.contentOf f.1 = scanner'.contentOf f.1)
    (cancelled : Task → Bool) :
    (e.job scanner).made cancelled (tasksOf scan.found) =
      (e.job scanner').made cancelled (tasksOf scan.found) := by
  rw [Job.made, Job.made]
  refine List.flatMap_congr ?_
  intro task htask
  rw [h.process_eq, h'.process_eq,
    madeIn_processFile_congr (hcontents _ (mem_found_of_mem_tasksOf htask))]

/-- A run over a scanned state returns some challenges exactly if the languages are ready, the
settings can be read, no task has a fatal end, and these are the challenges of its files, one file
after the other. -/
theorem ScansPlainly.returns_iff (h : ScansPlainly w root e.registry o scanner scan)
    (schedule : Schedule) (log : List Log.Message) (challenges : List Challenge) :
    (∃ harvest log', (extractWith { e with world := w } root o schedule).run log =
        (.ok harvest, log') ∧ harvest.challenges = challenges) ↔
      ((Grammar.validate e.toolkit.grammars (namedLanguages e.registry o)).1 = .ok () ∧
        (Grammar.validate e.toolkit.grammars (presentLanguages o scan.found)).1 = .ok () ∧
        ∃ wanted, wantedWorkers e o = .ok wanted) ∧
      (∀ task ∈ tasksOf scan.found,
        ((e.job scanner).attempt (schedule.cancelled task) task).result.ending.fatal? = none) ∧
      (e.job scanner).made schedule.cancelled (tasksOf scan.found) = challenges := by
  have hharvest : ((e.job scanner).harvest schedule scan).challenges =
      (e.job scanner).made schedule.cancelled (tasksOf scan.found) :=
    Job.challenges_harvest _ schedule (Scanner.found_ascending h.scanned)
  constructor
  · rintro ⟨harvest, log', hreturns, rfl⟩
    obtain ⟨scanner₁, scan₁, hready, hfatal, rfl⟩ := extractWith_eq_ok_iff.mp ⟨log', hreturns⟩
    obtain ⟨rfl, rfl⟩ := h.ready_unique hready
    exact ⟨⟨hready.named_ready, hready.present_ready, hready.settings⟩,
      Job.fatal_tally_eq_none_iff.mp hfatal, hharvest.symm⟩
  · rintro ⟨⟨hnamed, hpresent, hsettings⟩, hfatal, rfl⟩
    have hready : Ready { e with world := w } root o scanner scan :=
      ⟨hnamed, h.opened, h.scanned, hpresent, hsettings⟩
    obtain ⟨log', hreturns⟩ := extractWith_eq_ok_iff.mpr ⟨scanner, scan, hready,
      Job.fatal_tally_eq_none_iff.mpr hfatal, rfl⟩
    exact ⟨_, log', hreturns, hharvest⟩

/-- **A fingerprint is a sound key**: a stream is that of one list of files only, and two states
that are scanned without git and have one stream give equal challenges: what a run over one
returns, a run over the other returns too, if the same tasks are given up in both. -/
theorem fingerprint_determines_challenges (h : ScansPlainly w root e.registry o scanner scan)
    (h' : ScansPlainly w' root' e.registry o scanner' scan')
    (hstream : fingerprintStream (scanner.contents scan.found) =
      fingerprintStream (scanner'.contents scan'.found)) :
    (∀ files files', (∀ file ∈ files, FitsFrames file) → (∀ file ∈ files', FitsFrames file) →
      fingerprintStream files = fingerprintStream files' → files = files') ∧
    (fingerprint w e.registry root o =
        .ok (Sha256.hexDigest (fingerprintStream (scanner.contents scan.found))) ∧
      fingerprint w' e.registry root' o = fingerprint w e.registry root o) ∧
    ∀ (schedule schedule' : Schedule) log log' challenges,
      schedule.cancelled = schedule'.cancelled →
      ((∃ harvest log₁, (extractWith { e with world := w } root o schedule).run log =
          (.ok harvest, log₁) ∧ harvest.challenges = challenges) ↔
        ∃ harvest log₁, (extractWith { e with world := w' } root' o schedule').run log' =
          (.ok harvest, log₁) ∧ harvest.challenges = challenges) := by
  obtain ⟨hfound, hcontents⟩ := Scanner.found_eq_of_stream_eq h.scanned h'.scanned
    (h.options_eq.trans h'.options_eq.symm) h.fits h'.fits hstream
  refine ⟨fun files files' => Repository.fingerprintStream_injective, ⟨h.fingerprint_eq, ?_⟩, ?_⟩
  · rw [h.fingerprint_eq, h'.fingerprint_eq, hstream]
  · intro schedule schedule' log log' challenges hcancelled
    rw [h.returns_iff, h'.returns_iff, ← hfound, ← hcancelled, h.made_eq h' hcontents]
    refine and_congr_right fun _ => and_congr_left fun _ => forall₂_congr fun task htask => ?_
    have hmem := mem_found_of_mem_tasksOf htask
    cases schedule.cancelled task with
    | true => exact iff_of_true rfl rfl
    | false =>
        show (endingOf ((e.job scanner).process task)).fatal? = none ↔
          (endingOf ((e.job scanner').process task)).fatal? = none
        have hmem' : (task.path, task.language) ∈ scan'.found := by
          rwa [← hfound]
        have hfile : scanner.world.snapshot.isFile scanner.root task.path =
            scanner'.world.snapshot.isFile scanner'.root task.path :=
          (Scanner.isFile_of_mem_found h.scanned hmem).trans
            (Scanner.isFile_of_mem_found h'.scanned hmem').symm
        rw [h.process_eq, h'.process_eq, fatal_processFile_congr (hcontents _ hmem) hfile]

end Run

/-! ## The mixed repository without git -/

open Repository.Scanner (sampleRegistry sampleOptions sampleContent mixedSnapshot mixedWorld
  mixedScanner mixedFound mixed_open mixed_walk)

/-- The contents of the chosen files, which the notes are not among. -/
theorem mixed_contents (notes : List UInt8) :
    (mixedScanner false notes).contents mixedFound =
      [("a.sample", sampleContent), ("b.sample", [0]), ("c.sample", sampleContent),
        ("d.sample", sampleContent)].map fun f => (Text.Utf8.encode f.1.toList, f.2) := by
  have hread : ∀ name content, (mixedSnapshot notes).entryAt ["r", name] = some (.file content) →
      (mixedScanner false notes).contentOf name = content := by
    intro name content hentry
    show ((mixedSnapshot notes).read? ["r"] name).getD [] = content
    rw [mixed_read hentry, Option.getD_some]
  show ["a.sample", "b.sample", "c.sample", "d.sample"].map (fun name : String =>
    (Text.Utf8.encode name.toList, (mixedScanner false notes).contentOf name)) = _
  simp only [List.map_cons, List.map_nil]
  rw [hread "a.sample" _ rfl, hread "b.sample" _ rfl, hread "c.sample" _ rfl,
    hread "d.sample" _ rfl]

theorem mixed_scansPlainly {notes : List UInt8} {scan : Scanner.Outcome}
    (hscan : (mixedScanner false notes).run sampleRegistry none = .ok scan)
    (hfound : scan.found = mixedFound) :
    ScansPlainly (mixedWorld false notes) "/r" sampleRegistry (sampleOptions ["x.*"])
      (mixedScanner false notes) scan where
  opened := ⟨[], mixed_open false notes⟩
  scanned := hscan
  without_git := rfl
  fits := by
    rw [hfound, mixed_contents]
    intro file hfile
    simp only [List.map_cons, List.map_nil, List.mem_cons, List.not_mem_nil, or_false] at hfile
    rcases hfile with rfl | rfl | rfl | rfl
    all_goals exact ⟨by decide, by decide⟩

/-- The run over the mixed repository returns four challenges also without git. -/
theorem mixed_returns {notes : List UInt8} {scan : Scanner.Outcome}
    (hscan : (mixedScanner false notes).run sampleRegistry none = .ok scan)
    (hfound : scan.found = mixedFound) : ∃ harvest log',
    (extractWith (mixedSurroundings false notes) "/r" (sampleOptions ["x.*"])
      (.inOrder mixedCancelled)).run [] = (.ok harvest, log') ∧
    harvest.challenges.map (fun c => (c.filePath, c.startByte, c.endByte)) =
      [("a.sample", 0, 30), ("a.sample", 8, 22), ("d.sample", 0, 30), ("d.sample", 8, 22)] := by
  have hfatal : ((mixedJob false notes).tally (.inOrder mixedCancelled) scan).fatal = none := by
    refine Job.fatal_tally ?_
    rw [hfound]
    exact mixed_grammar false notes
  obtain ⟨log', hrun⟩ :=
    extractWith_eq_ok_iff.mpr ⟨_, scan, mixed_ready hscan hfound, hfatal, rfl⟩
  refine ⟨_, log', hrun, ?_⟩
  rw [Job.challenges_harvest _ _ (Scanner.found_ascending hscan), hfound]
  exact mixed_made false notes

/-- Two states of the mixed repository with other notes, which are not scanned, have one stream, and
so the same challenges. -/
theorem fingerprint_determines_challenges_sample : ∃ scan scan' : Scanner.Outcome,
    ScansPlainly (mixedWorld false []) "/r" sampleRegistry (sampleOptions ["x.*"])
      (mixedScanner false []) scan ∧
    ScansPlainly (mixedWorld false [0x21]) "/r" sampleRegistry (sampleOptions ["x.*"])
      (mixedScanner false [0x21]) scan' ∧
    (mixedSnapshot []).read? ["r"] "notes.txt" = some [] ∧
    (mixedSnapshot [0x21]).read? ["r"] "notes.txt" = some [0x21] ∧
    fingerprintStream ((mixedScanner false []).contents scan.found) =
      fingerprintStream ((mixedScanner false [0x21]).contents scan'.found) ∧
    fingerprint (mixedWorld false [0x21]) sampleRegistry "/r" (sampleOptions ["x.*"]) =
      fingerprint (mixedWorld false []) sampleRegistry "/r" (sampleOptions ["x.*"]) ∧
    ∃ harvest harvest' log log',
      (extractWith (mixedSurroundings false []) "/r" (sampleOptions ["x.*"])
        (.inOrder mixedCancelled)).run [] = (.ok harvest, log) ∧
      (extractWith (mixedSurroundings false [0x21]) "/r" (sampleOptions ["x.*"])
        (.inOrder mixedCancelled)).run [] = (.ok harvest', log') ∧
      harvest'.challenges = harvest.challenges ∧
      harvest.challenges.map (fun c => (c.filePath, c.startByte, c.endByte)) =
        [("a.sample", 0, 30), ("a.sample", 8, 22), ("d.sample", 0, 30), ("d.sample", 8, 22)] := by
  obtain ⟨scan, hscan, hfound⟩ := mixed_walk []
  obtain ⟨scan', hscan', hfound'⟩ := mixed_walk [0x21]
  have hplain := mixed_scansPlainly hscan hfound
  have hplain' := mixed_scansPlainly hscan' hfound'
  have hstream : fingerprintStream ((mixedScanner false []).contents scan.found) =
      fingerprintStream ((mixedScanner false [0x21]).contents scan'.found) := by
    rw [hfound, hfound', mixed_contents, mixed_contents]
  obtain ⟨-, ⟨-, hfingerprint⟩, hchallenges⟩ := fingerprint_determines_challenges
    (e := mixedSurroundings false []) hplain hplain' hstream
  obtain ⟨harvest, log, hrun, hplaces⟩ := mixed_returns hscan hfound
  obtain ⟨harvest', log', hrun', hsame⟩ := (hchallenges (.inOrder mixedCancelled)
    (.inOrder mixedCancelled) [] [] _ rfl).mp ⟨harvest, log, hrun, rfl⟩
  exact ⟨scan, scan', hplain, hplain', mixed_read rfl, mixed_read rfl, hstream, hfingerprint,
    harvest, harvest', log, log', hrun, hrun', hsame, hplaces⟩

end Extraction

end CodeChallenges

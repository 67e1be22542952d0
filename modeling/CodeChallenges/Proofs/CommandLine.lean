import CodeChallenges.CommandLine
import CodeChallenges.Proofs.Challenge.Records
import CodeChallenges.Proofs.Extraction.Schedule
import CodeChallenges.Proofs.Report
import Mathlib.Data.List.Induction
/-!
# What the command line program tells

The program checks everything before it tells anything.  So it either ends with an exit code for
which it is quiet, or its extraction has returned (`run_cases`).  Of what was returned, the summary
holds two lists of counts, in which each challenge is counted once (`counts_sortedByKey`), and the
records hold one line for each challenge.  The numbers that a run tells are therefore the same, and
they are those of the challenges that it returned (`run_tells`).
-/

namespace CodeChallenges

/-! ## Lines -/

/-- A text is one line for each value: each line is ended, and it is read as its value. -/
def Json.IsLines (text : String) (values : List Json) : Prop :=
  ∃ lines : List (List UInt8),
    Text.Utf8.encode text.toList = lines.flatMap (· ++ [newlineByte]) ∧
    (∀ line ∈ lines, newlineByte ∉ line) ∧ lines.map Json.ofBytes? = values.map some

/-- Texts of values, each ended, are one line for each value. -/
theorem Json.isLines_ofList (values : List Json) :
    IsLines (String.ofList (values.flatMap fun v => v.render ++ ['\n'])) values := by
  refine ⟨values.map fun v => Text.Utf8.encode v.render, ?_, ?_, ?_⟩
  · rw [String.toList_ofList, encode_flatMap_render, List.flatMap_map]
  · intro line hline
    obtain ⟨v, -, rfl⟩ := List.mem_map.mp hline
    exact newlineByte_not_mem_encode_render v
  · rw [List.map_map]
    exact List.map_congr_left fun v _ => ofBytes?_encode_render v

theorem Json.isLines_text (v : Json) : IsLines (v.text ++ "\n") [v] := by
  have htext : v.text ++ "\n" = String.ofList ([v].flatMap fun v => v.render ++ ['\n']) := by
    rw [List.flatMap_singleton, String.ofList_append]
    rfl
  rw [htext]
  exact isLines_ofList [v]

theorem Challenge.isLines_ndjson (challenges : List Challenge) :
    Json.IsLines (ndjson challenges) (challenges.map toJson) := by
  have htext : ndjson challenges =
      String.ofList ((challenges.map toJson).flatMap fun v => v.render ++ ['\n']) := by
    rw [List.flatMap_map]
    rfl
  rw [htext]
  exact Json.isLines_ofList _

/-- There are as many line feeds as values. -/
theorem Json.IsLines.count_eq {text : String} {values : List Json} (h : IsLines text values) :
    (Text.Utf8.encode text.toList).count newlineByte = values.length := by
  obtain ⟨lines, hlines, hnewline, hread⟩ := h
  have hlength := congrArg List.length hread
  rw [List.length_map, List.length_map] at hlength
  rw [hlines, count_endedLines hnewline, hlength]

namespace CommandLine

open Extraction Repository

/-! ## Counts of items -/

section

variable {α : Type} (name : α → String) (items : List α)

/-- Each name that items have stands with the number of the items that have it, in ascending order
of the names, and the numbers add up to the number of all items. -/
structure Counts (counts : List (String × Int)) : Prop where
  ascending : counts.Pairwise (fun a b => a.1 < b.1)
  mem_iff : ∀ key n, (key, n) ∈ counts ↔ 0 < n ∧ n = items.countP (name · == key)
  total_eq : Report.total counts = items.length

theorem countBy_concat (item : α) :
    countBy name (items ++ [item]) = Report.countOne (name item) (countBy name items) := by
  rw [countBy, List.foldl_append]
  rfl

theorem nodup_countBy : ((countBy name items).map Prod.fst).Nodup := by
  induction items using List.reverseRecOn with
  | nil => exact List.nodup_nil
  | append_singleton items item ih =>
      rw [countBy_concat]
      exact Report.nodup_names_countOne (name item) ih

theorem total_countBy : Report.total (countBy name items) = items.length := by
  induction items using List.reverseRecOn with
  | nil => rfl
  | append_singleton items item ih =>
      rw [countBy_concat, Report.total_countOne, ih, List.length_append, List.length_singleton]
      rfl

/-- A name is looked up if items have it, with their number. -/
theorem lookup_countBy (key : String) :
    (countBy name items).lookup key =
      if items.countP (name · == key) = 0 then none
      else some (items.countP (name · == key) : Int) := by
  induction items using List.reverseRecOn with
  | nil => rfl
  | append_singleton items item ih =>
      rw [countBy_concat, Report.lookup_countOne, ih, List.countP_append, List.countP_singleton]
      by_cases hkey : key = name item
      · rw [if_pos hkey, if_pos (beq_iff_eq.mpr hkey.symm), if_neg (Nat.succ_ne_zero _)]
        split
        · rename_i hzero
          rw [hzero]
          rfl
        · rfl
      · rw [if_neg hkey, if_neg (mt beq_iff_eq.mp (Ne.symm hkey)), Nat.add_zero]

/-- **The counts of a summary** count each item once. -/
theorem counts_sortedByKey : Counts name items (sortedByKey (countBy name items)) := by
  have hnodup := nodup_countBy name items
  have hperm : (sortedByKey (countBy name items)).Perm (countBy name items) :=
    List.mergeSort_perm _ _
  refine ⟨Report.pairwise_sortedByKey hnodup, fun key n => ?_, ?_⟩
  · rw [hperm.mem_iff, Report.mem_iff_lookup hnodup, lookup_countBy]
    split
    · rename_i hzero
      rw [hzero]
      exact iff_of_false nofun fun ⟨hpos, heq⟩ => by omega
    · rename_i hpos
      rw [Option.some.injEq, eq_comm]
      exact (and_iff_right_of_imp fun heq => by omega).symm
  · rw [Report.total_perm hperm, total_countBy]

end

/-! ## Outcomes -/

/-- An outcome with nothing on the output and no file. -/
def Outcome.Quiet (outcome : Outcome) : Prop :=
  outcome.output = "" ∧ outcome.written = none

/-- What an outcome shows of a summary and of records, by what the command line names for the
records.  Without a name there is the summary, on the output; a dash is for the records, on the
output instead of the summary; and anything else is the path of the file with the records, beside
the summary on the output. -/
def Outcome.Shows (outcome : Outcome) (named : Option String) (summary : Json)
    (records : List Json) : Prop :=
  match named with
  | none | some "" => Json.IsLines outcome.output [summary] ∧ outcome.written = none
  | some "-" => Json.IsLines outcome.output records ∧ outcome.written = none
  | some path =>
    Json.IsLines outcome.output [summary] ∧
      ∃ text, outcome.written = some (path, text) ∧ Json.IsLines text records

/-- The extraction that a command line asks for, with the settings of the environment, returns. -/
def Yields (e : Surroundings) (a : Arguments) (x : Harvest) : Prop :=
  ∃ c o messages, Config.load e.environment e.processors = .ok c ∧
    optionsOf e.registry a.draft c = .ok o ∧
    (extract e a.root o false).run [] = (.ok x, messages)

/-- A name other than a dash is the path of a file. -/
theorem targetOf_path {path : String} (hempty : path ≠ "") (hdash : path ≠ "-") :
    targetOf (some path) = .file path := by
  rw [targetOf, beq_eq_false_iff_ne.mpr hempty, if_neg Bool.false_ne_true,
    beq_eq_false_iff_ne.mpr hdash, if_neg Bool.false_ne_true]

/-- Success shows what was returned. -/
theorem success_shows {w : World} {a : Arguments} {x : Harvest} {errorLines : List String}
    {outcome : Outcome} (h : success w a x errorLines = .ok outcome) :
    outcome.exitCode = 0 ∧ ∃ root, outcome.Shows a.draft.ndjson
      (summary root x.report x.challenges) (x.challenges.map Challenge.toJson) := by
  obtain ⟨_, -, h⟩ := bind_eq_ok_iff.mp h
  obtain ⟨root, -, h⟩ := bind_eq_ok_iff.mp h
  have hsummary := Json.isLines_text (summary root x.report x.challenges)
  have hrecords := Challenge.isLines_ndjson x.challenges
  suffices hshows : outcome.exitCode = 0 ∧ outcome.Shows a.draft.ndjson
      (summary root x.report x.challenges) (x.challenges.map Challenge.toJson) from
    ⟨hshows.1, root, hshows.2⟩
  unfold Outcome.Shows
  generalize a.draft.ndjson = named at h ⊢
  split
  · cases h
    exact ⟨rfl, hsummary, rfl⟩
  · cases h
    exact ⟨rfl, hsummary, rfl⟩
  · cases h
    exact ⟨rfl, hrecords, rfl⟩
  · rename_i path hempty hdash
    rw [targetOf_path hempty hdash] at h
    cases h
    exact ⟨rfl, hsummary, _, rfl, hrecords⟩

/-- There is success once the target can be written and the root can be shown. -/
theorem exists_success {w : World} {a : Arguments} {root : String} (x : Harvest)
    (errorLines : List String) (htarget : checkTarget w (targetOf a.draft.ndjson) = .ok ())
    (hroot : shownRoot w a.root = .ok root) :
    ∃ outcome, success w a x errorLines = .ok outcome := by
  rw [success, htarget, hroot]
  cases targetOf a.draft.ndjson with
  | nowhere | output | file path => exact ⟨_, rfl⟩

/-- An extraction returns if no glob is left out and it returns what it is run for. -/
theorem harvest_eq_ok_iff {e : Surroundings} {a : Arguments} {o : Options} {x : Harvest}
    {messages : List Log.Message} :
    harvest e a o = (.ok x, messages) ↔
      checkGlobs e.world a o = .ok () ∧ (extract e a.root o false).run [] = (.ok x, messages) := by
  rw [harvest]
  cases hglobs : checkGlobs e.world a o with
  | error breakdown => exact iff_of_false nofun nofun
  | ok _ =>
      rw [and_iff_right rfl]
      rcases (extract e a.root o false).run [] with ⟨result, said⟩
      rw [Prod.mk.injEq, Prod.mk.injEq, mapError_eq_ok_iff]

/-- An extraction that fails leaves a quiet outcome; otherwise there is success. -/
theorem runExtraction_cases {e : Surroundings} {a : Arguments} {c : Config} {o : Options}
    {outcome : Outcome} (h : runExtraction e a c o = .ok outcome) :
    (outcome.exitCode = 1 ∧ outcome.Quiet) ∨
      ∃ x messages errorLines, (extract e a.root o false).run [] = (.ok x, messages) ∧
        success e.world a x errorLines = .ok outcome := by
  rw [runExtraction] at h
  split at h
  · rename_i x messages hharvest
    exact .inr ⟨x, messages, _, (harvest_eq_ok_iff.mp hharvest).2, h⟩
  · split at h
    · cases h
      exact .inl ⟨rfl, rfl, rfl⟩
    · cases h
  · cases h

/-- **A run on a command line that can be read** ends with a refusal or a failure, and is quiet, or
its extraction returns and there is success. -/
theorem run_cases {e : Surroundings} {words : List String} {a : Arguments} {outcome : Outcome}
    (hparse : parseArguments words = .ok a) (h : run e words = .ok outcome) :
    (outcome.exitCode ≠ 0 ∧ outcome.Quiet) ∨
      ∃ x errorLines, Yields e a x ∧ success e.world a x errorLines = .ok outcome := by
  rw [run, hparse] at h
  dsimp only at h
  cases hload : Config.load e.environment e.processors with
  | error fault =>
      rw [hload] at h
      cases h
      exact .inl ⟨Nat.succ_ne_zero _, rfl, rfl⟩
  | ok c =>
      rw [hload] at h
      dsimp only at h
      cases hoptions : optionsOf e.registry a.draft c with
      | error refusal =>
          rw [hoptions] at h
          cases refusal with
          | told message =>
              cases h
              exact .inl ⟨Nat.succ_ne_zero _, rfl, rfl⟩
          | missingNumber => cases h
      | ok o =>
          rw [hoptions] at h
          rcases runExtraction_cases h with ⟨hcode, hquiet⟩ | ⟨x, messages, errorLines, hrun, hsuccess⟩
          · exact .inl ⟨hcode ▸ Nat.succ_ne_zero 0, hquiet⟩
          · exact .inr ⟨x, errorLines, ⟨c, o, messages, hload, hoptions, hrun⟩, hsuccess⟩

theorem Yields.unique {e : Surroundings} {a : Arguments} {x y : Harvest} (h : Yields e a x)
    (h' : Yields e a y) : x = y := by
  obtain ⟨c, o, messages, hload, hoptions, hrun⟩ := h
  obtain ⟨c', o', messages', hload', hoptions', hrun'⟩ := h'
  cases hload.symm.trans hload'
  cases hoptions.symm.trans hoptions'
  exact Except.ok.inj (Prod.mk.inj (hrun.symm.trans hrun')).1

/-- The report of an extraction counts the challenges that it returns. -/
theorem Yields.challenges_eq {e : Surroundings} {a : Arguments} {x : Harvest} (h : Yields e a x) :
    x.report.challenges = x.challenges.length := by
  obtain ⟨c, o, messages, -, -, hrun⟩ := h
  obtain ⟨scanner, scan, -, -, rfl⟩ := extractWith_eq_ok_iff.mp ⟨messages, hrun⟩
  rfl

/-! ## What a run tells -/

/-- Counts as an object. -/
def countsOf (counts : List (String × Int)) : Json :=
  .obj (counts.map fun count => (count.1, .int count.2))

/-- **What a run tells**, on a command line that can be read: with an exit code other than zero,
nothing is on the output and no file is written.  With zero, the extraction has returned, and what
is shown of it goes where the command line says: the summary in one line to the output, or the
records if a dash is named for them, and the records to a file if its path is named.  The number of
the challenges is in the report, it is the sum of the counts by kind and of those by language, each
of which is the number of the challenges of that kind or language, and it is the number of the
records, one line for each challenge. -/
theorem run_tells {e : Surroundings} {words : List String} {a : Arguments} {outcome : Outcome}
    (hparse : parseArguments words = .ok a) (h : run e words = .ok outcome) :
    (outcome.exitCode ≠ 0 → outcome.output = "" ∧ outcome.written = none) ∧
    (outcome.exitCode = 0 → ∃ x root byType byLanguage, Yields e a x ∧
      x.report.challenges = x.challenges.length ∧
      Counts (·.chunkType.tag) x.challenges byType ∧
      Counts (·.language) x.challenges byLanguage ∧
      outcome.Shows a.draft.ndjson
        (.obj [
          ("root", .str root),
          ("report", x.report.toJson),
          ("by_type", countsOf byType),
          ("by_language", countsOf byLanguage)])
        (x.challenges.map Challenge.toJson)) := by
  rcases run_cases hparse h with ⟨hcode, hquiet⟩ | ⟨x, errorLines, hyields, hsuccess⟩
  · exact ⟨fun _ => hquiet, fun hzero => absurd hzero hcode⟩
  · obtain ⟨hcode, root, hshows⟩ := success_shows hsuccess
    refine ⟨fun hne => absurd hcode hne, fun _ => ?_⟩
    exact ⟨x, root, _, _, hyields, hyields.challenges_eq, counts_sortedByKey _ _,
      counts_sortedByKey _ _, hshows⟩

/-! ## Small runs -/

open Repository.Scanner (sampleLanguage sampleWorld sampleOptions sampleScanner sample_settledPlace)

/-- Command lines about the small repository, which may name something for the records. -/
def sampleWords : Option String → List String
  | none => ["/r", "--no-default-excludes"]
  | some path => ["/r", "--no-default-excludes", "--ndjson", path]

/-- What they ask for. -/
def sampleArguments (named : Option String) : Arguments :=
  ⟨"/r", { root := some "/r", noDefaultExcludes := true, ndjson := named }⟩

/-- Nothing is named, or the output, or a file. -/
def sampleNames : List (Option String) :=
  [none, some "-", some "out.ndjson"]

theorem sample_parsed {named : Option String} (h : named ∈ sampleNames) :
    parseArguments (sampleWords named) = .ok (sampleArguments named) := by
  have hclassified : classifyAll (sampleWords named) =
      .ok ([.plain "/r", .option .noDefaultExcludes false none] ++
        match named with
        | none => []
        | some path => [.option .ndjson false none, .plain path]) := by
    simp only [sampleNames, List.mem_cons, List.not_mem_nil, or_false] at h
    rcases h with rfl | rfl | rfl
    all_goals rfl
  refine bind_eq_ok_iff.mpr ⟨_, mapError_eq_ok_iff.mpr hclassified, ?_⟩
  cases named with
  | none =>
      simp only [List.append_nil, Draft.read, Draft.addPlain, skipSeparator, Flag.takesValue,
        Flag.valueName?, Draft.set]
      rfl
  | some path =>
      simp only [List.cons_append, List.nil_append, Draft.read, Draft.addPlain, skipSeparator,
        Flag.takesValue, Flag.valueName?, Draft.set, Draft.setValue]
      rfl

/-- The settings and options of the small runs. -/
theorem sample_options (named : Option String) :
    Config.load sampleSurroundings.environment sampleSurroundings.processors =
      .ok ⟨1, defaultMaxFileBytes, 20⟩ ∧
    optionsOf sampleSurroundings.registry (sampleArguments named).draft
      ⟨1, defaultMaxFileBytes, 20⟩ = .ok { sampleOptions [] with workers := some 1 } :=
  ⟨rfl, rfl⟩

/-- The extraction of the small runs returns two challenges. -/
theorem sample_yields : ∃ x : Harvest, x.challenges.length = 2 ∧
    ∀ named, Yields sampleSurroundings (sampleArguments named) x := by
  obtain ⟨x, messages, hrun, hmade⟩ := sample_returns (some 1) 1 rfl
  obtain ⟨made, _, hprocessed, hplaces⟩ := sample_processed
  refine ⟨x, ?_, fun named =>
    ⟨_, _, messages, (sample_options named).1, (sample_options named).2, hrun⟩⟩
  have hprocess : (sampleSurroundings.job (sampleScanner [])).process
      ⟨0, "a/b/f.sample", sampleLanguage⟩ = .ok ⟨.challenges 3 made, 1, _⟩ := hprocessed
  have hlength := congrArg List.length hplaces
  rw [List.length_map] at hlength
  rw [hmade, hprocess]
  exact hlength

/-- A file can be written beside the small repository. -/
theorem sample_checkTarget {named : Option String} (h : named ∈ sampleNames) :
    checkTarget sampleWorld (targetOf named) = .ok () := by
  simp only [sampleNames, List.mem_cons, List.not_mem_nil, or_false] at h
  rcases h with rfl | rfl | rfl
  · rfl
  · rfl
  · have hfault : sampleWorld.snapshot.writeFault? [] "out.ndjson" = none := by
      have hstart : Snapshot.startOf [] "out.ndjson" = [] := by decide
      have hsegments : Path.segments "out.ndjson" = ["out.ndjson"] := by decide
      rw [Snapshot.writeFault?, Snapshot.locateFor_eq_follow (by decide) (by decide), hstart,
        hsegments, Snapshot.follow_of_missing rfl (by decide) (by decide) rfl rfl]
    rw [targetOf_path (by decide) (by decide), checkTarget]
    exact hfault ▸ rfl

/-- The program succeeds on these command lines. -/
theorem sample_succeeds {named : Option String} (h : named ∈ sampleNames) : ∃ outcome,
    run sampleSurroundings (sampleWords named) = .ok outcome ∧ outcome.exitCode = 0 := by
  obtain ⟨x, -, hyields⟩ := sample_yields
  obtain ⟨c, o, messages, hload, hoptions, hrun⟩ := hyields named
  cases (sample_options named).1.symm.trans hload
  cases (sample_options named).2.symm.trans hoptions
  have hroot : shownRoot sampleWorld "/r" = .ok "/r" :=
    mapError_eq_ok_iff.mpr (map_eq_ok_iff.mpr ⟨["r"], sample_settledPlace, by decide⟩)
  obtain ⟨outcome, houtcome⟩ := exists_success (a := sampleArguments named) x
    ((Log.fromRank 20 messages).map Log.Message.line) (sample_checkTarget h) hroot
  refine ⟨outcome, ?_, (success_shows houtcome).1⟩
  rw [run, sample_parsed h]
  dsimp only
  rw [hload]
  dsimp only
  rw [hoptions]
  dsimp only
  rw [runExtraction, harvest_eq_ok_iff.mpr ⟨rfl, hrun⟩]
  exact houtcome

/-- The small runs tell of two challenges: with nothing named the output is the summary, with a dash
it is the two records, and with a path it is the summary while the two records are in the file. -/
theorem run_tells_sample : ∃ (x : Harvest) (silent shown filed : Outcome) (text root : String)
    (byType byLanguage : List (String × Int)),
    x.report.challenges = 2 ∧ Report.total byType = 2 ∧ Report.total byLanguage = 2 ∧
    (∀ named ∈ sampleNames, parseArguments (sampleWords named) = .ok (sampleArguments named) ∧
      Yields sampleSurroundings (sampleArguments named) x) ∧
    (run sampleSurroundings (sampleWords none) = .ok silent ∧ silent.exitCode = 0 ∧
      Json.IsLines silent.output [.obj [
        ("root", .str root),
        ("report", x.report.toJson),
        ("by_type", countsOf byType),
        ("by_language", countsOf byLanguage)]] ∧
      silent.written = none) ∧
    (run sampleSurroundings (sampleWords (some "-")) = .ok shown ∧ shown.exitCode = 0 ∧
      (Text.Utf8.encode shown.output.toList).count newlineByte = 2 ∧ shown.written = none) ∧
    (run sampleSurroundings (sampleWords (some "out.ndjson")) = .ok filed ∧ filed.exitCode = 0 ∧
      (Text.Utf8.encode filed.output.toList).count newlineByte = 1 ∧
      filed.written = some ("out.ndjson", text) ∧
      (Text.Utf8.encode text.toList).count newlineByte = 2) := by
  obtain ⟨x, hlength, hyields⟩ := sample_yields
  have htells : ∀ named ∈ sampleNames, ∃ outcome root byType byLanguage,
      run sampleSurroundings (sampleWords named) = .ok outcome ∧ outcome.exitCode = 0 ∧
        (Counts (·.chunkType.tag) x.challenges byType ∧
          Counts (·.language) x.challenges byLanguage) ∧
        outcome.Shows named
          (.obj [
            ("root", .str root),
            ("report", x.report.toJson),
            ("by_type", countsOf byType),
            ("by_language", countsOf byLanguage)])
          (x.challenges.map Challenge.toJson) := by
    intro named h
    obtain ⟨outcome, hrun, hcode⟩ := sample_succeeds h
    obtain ⟨y, root, byType, byLanguage, hyields', -, htypes, hlanguages, hshows⟩ :=
      (run_tells (sample_parsed h) hrun).2 hcode
    cases (hyields named).unique hyields'
    exact ⟨outcome, root, byType, byLanguage, hrun, hcode, ⟨htypes, hlanguages⟩, hshows⟩
  have hrecords : ∀ {output : String},
      Json.IsLines output (x.challenges.map Challenge.toJson) →
        (Text.Utf8.encode output.toList).count newlineByte = 2 := by
    intro output h
    rw [h.count_eq, List.length_map, hlength]
  obtain ⟨silent, root, byType, byLanguage, hsilent, hsilentCode, ⟨htypes, hlanguages⟩, hsummary,
    hnothing⟩ := htells none (by decide)
  obtain ⟨shown, _, _, _, hshown, hshownCode, -, hlines, hnone⟩ := htells (some "-") (by decide)
  obtain ⟨filed, _, _, _, hfiled, hfiledCode, -, hbeside, text, hwritten, hinside⟩ :=
    htells (some "out.ndjson") (by decide)
  refine ⟨x, silent, shown, filed, text, root, byType, byLanguage, ?_, ?_, ?_,
    fun named h => ⟨sample_parsed h, hyields named⟩, ?_, ?_, ?_⟩
  · rw [(hyields none).challenges_eq, hlength]
    rfl
  · rw [htypes.total_eq, hlength]
    rfl
  · rw [hlanguages.total_eq, hlength]
    rfl
  · exact ⟨hsilent, hsilentCode, hsummary, hnothing⟩
  · exact ⟨hshown, hshownCode, hrecords hlines, hnone⟩
  · exact ⟨hfiled, hfiledCode, hbeside.count_eq, hwritten, hrecords hinside⟩

end CommandLine

end CodeChallenges

import CodeChallenges.Config
import CodeChallenges.Extraction.File
import CodeChallenges.Grammar.Pool
import CodeChallenges.Report
/-!
The extraction of a whole repository.  Grammars are checked before any file is processed; every
file gives one result; the results are counted and put together as they arrive, and the challenges
are sorted, so that neither the order of arrival nor the number of workers shows.
-/

namespace CodeChallenges.Extraction

open Repository

/-- A file to be processed: its position among the chosen files, its path and its language. -/
structure Task where
  index : Nat
  path : String
  language : Language

/-- How one task ended. -/
inductive Ending where
  | done (candidates : Nat) (dropped : Int) (challenges : List Challenge)
  | skipped (reason : SkipReason)
  | cancelled
  | fatal (failure : Grammar.Failure)

/-- The result of one task. -/
structure Result where
  index : Nat
  path : String
  ending : Ending

/-- How a task ends that is not cancelled: a grammar that fails is fatal, any other fault counts
the file as failed. -/
def endingOf : Except Fault Processed → Ending
  | .ok ⟨.skipped reason, _, _⟩ => .skipped reason
  | .ok ⟨.challenges candidates made, dropped, _⟩ => .done candidates dropped made
  | .error (.grammar failure) => .fatal failure
  | .error _ => .skipped .failed

/-- What the workers of a run share. -/
structure Job where
  toolkit : Toolkit
  registry : Registry
  scanner : Scanner

/-- Git, if it is to be asked about files. -/
def Job.git (j : Job) : Option GitService :=
  if j.scanner.usesGit then some j.scanner.world.git else none

/-- The outcome of processing the file of a task. -/
def Job.process (j : Job) (task : Task) : Except Fault Processed :=
  processFile j.toolkit j.registry j.scanner.options j.scanner.world.snapshot j.scanner.root j.git
    task.path task.language

/-- A task with the outcome of its processing; once a run is cancelled there is none. -/
structure Attempt where
  task : Task
  outcome : Option (Except Fault Processed)

/-- Takes up a task. -/
def Job.attempt (j : Job) (cancelled : Bool) (task : Task) : Attempt :=
  ⟨task, if cancelled then none else some (j.process task)⟩

/-- The result of an attempt. -/
def Attempt.result (a : Attempt) : Result :=
  ⟨a.task.index, a.task.path,
    match a.outcome with
    | none => .cancelled
    | some outcome => endingOf outcome⟩

/-- The messages about a file: those of its processing, or that it failed. -/
def Attempt.messages (a : Attempt) : List Log.Message :=
  match a.outcome with
  | none => []
  | some (.ok processed) => processed.messages
  | some (.error (.grammar _)) => []
  | some (.error _) => [⟨.error, .extraction, s!"Extraction failed for {a.task.path}"⟩]

/-- What results amount to: the counts, the challenges in order of arrival, and the first fatal
failure. -/
structure Tally where
  report : Report
  challenges : List Challenge := []
  fatal : Option Grammar.Failure := none

/-- Adds one result. -/
def Tally.add (t : Tally) (result : Result) : Tally :=
  match result.ending with
  | .fatal failure => { t with fatal := t.fatal.orElse fun _ => some failure }
  | .cancelled => { t with report := { t.report with cancelled := true } }
  | .skipped reason => { t with report := t.report.skip reason.tag }
  | .done candidates dropped challenges =>
    { t with
      report := { t.report with
        filesProcessed := t.report.filesProcessed + 1
        candidateChunks := t.report.candidateChunks + candidates
        droppedChunks := t.report.droppedChunks + dropped }
      challenges := t.challenges ++ challenges }

/-- Adds results in the order of their arrival. -/
def Tally.addAll (t : Tally) (results : List Result) : Tally :=
  results.foldl Tally.add t

/-- The rank of a challenge among challenges of one place. -/
def challengeRank (r : Registry) (c : Challenge) : Nat :=
  match r.byName c.language with
  | some l => l.rank c.chunkType
  | none => 0

/-- Order by path, then start, then longer before shorter, then rank. -/
def challengeLe (r : Registry) (a b : Challenge) : Bool :=
  decide (a.filePath < b.filePath) || (a.filePath == b.filePath &&
    (a.startByte < b.startByte || (a.startByte == b.startByte &&
      (b.endByte < a.endByte || (a.endByte == b.endByte &&
        challengeRank r a ≤ challengeRank r b)))))

/-- Progress is told after each batch of this many results, and at the end. -/
def progressBatch : Nat := 16

/-- The numbers of results after which progress is told. -/
def progressPoints (total : Nat) : List Nat :=
  ((List.range total).map (· + 1)).filter fun n => n % progressBatch == 0 || n == total

/-- Why an extraction gives no result. -/
inductive RunFault where
  | cannotOpen (fault : OpenFault)
  | cannotList (fault : ListFault)
  | grammar (fault : Grammar.PoolFault)
  | config (fault : Config.Fault)

/-- The message for a fault. -/
def RunFault.message : RunFault → String
  | .cannotOpen fault => fault.message
  | .cannotList fault => fault.message
  | .grammar fault => fault.message
  | .config fault => fault.message

/-- Faults that are the run's own, as opposed to those of its surroundings. -/
def RunFault.isOwn : RunFault → Bool
  | .cannotOpen (.notDirectory _) => true
  | .cannotOpen (.invalidGlob _) => true
  | .grammar (.notReady _) => true
  | _ => false

/-- The result of an extraction. -/
structure Harvest where
  challenges : List Challenge
  report : Report
  progress : List Nat
  total : Nat
  gitCalls : List (List String)

/-- Where an extraction takes place. -/
structure Surroundings where
  toolkit : Toolkit
  registry : Registry
  world : World
  environment : Environment
  processors : Option Nat

/-- The languages that are checked before the scan: those that the options name. -/
def namedLanguages (r : Registry) (o : Options) : List Language :=
  match o.languages with
  | none => []
  | some names => names.filterMap r.byName

/-- The languages that are checked after the scan if the options name none: those of the chosen
files, in order of appearance. -/
def presentLanguages (o : Options) (found : List (String × Language)) : List Language :=
  match o.languages with
  | some _ => []
  | none => (found.foldl (fun seen f =>
      if seen.any (·.name == f.2.name) then seen else seen ++ [f.2]) [])

/-- The number of workers that are asked for: by the options, or else by the settings. -/
def wantedWorkers (e : Surroundings) (o : Options) : Except Config.Fault Int :=
  match o.workers with
  | some n => if n == 0 then fromSettings else .ok n
  | none => fromSettings
where
  /-- The number in the settings. -/
  fromSettings : Except Config.Fault Int :=
    (Config.load e.environment e.processors).map (·.workers)

/-- The number of workers that are started: at least one, and no more than there are files. -/
def startedWorkers (wanted : Int) (total : Nat) : Int :=
  max 1 (min wanted (max total 1))

/-- The message at the start. -/
def startMessage (root : Place) (total : Nat) (workers : Int) : Log.Message :=
  ⟨.info, .extraction, s!"Extracting {total} files from {root.text} with {workers} workers"⟩

/-- The message at the end. -/
def endMessage (r : Report) : Log.Message :=
  let cancelled := if r.cancelled then ", cancelled" else ""
  let skipped := s!"{r.skippedTotal} skipped{cancelled}"
  ⟨.info, .extraction,
    s!"Extracted {r.challenges} challenges from {r.filesProcessed} files ({skipped})"⟩

/-- Steps of a run, which leave their messages also when they fail. -/
abbrev Running := ExceptT RunFault (StateM (List Log.Message))

namespace Running

/-- Leaves messages. -/
def say (messages : List Log.Message) : Running Unit :=
  modify (· ++ messages)

/-- A step that fails with a fault of its own kind. -/
def orFail {α ε : Type} (wrap : ε → RunFault) : Except ε α → Running α
  | .ok a => return a
  | .error e => throw (wrap e)

/-- Checks that languages are ready. -/
def validate (t : Toolkit) (languages : List Language) : Running Unit := do
  let (result, messages) := Grammar.validate t.grammars languages
  say messages
  orFail .grammar result

end Running

/-- The tasks of chosen files. -/
def tasksOf (found : List (String × Language)) : List Task :=
  found.zipIdx.map fun ((path, language), index) => ⟨index, path, language⟩

/-- The tally before any result: what the scan counted. -/
def startTally (stats : Scanner.Stats) : Tally :=
  { report := {
      filesScanned := stats.seen
      unsupportedFiles := stats.unsupported
      excludedFiles := stats.excluded } }

/-- The questions about files that are asked of git. -/
def Job.gitQuestions (j : Job) (tasks : List Task) : List (List String) :=
  if j.git.isNone then []
  else (tasks.filter fun task =>
    asksGit j.scanner.options j.scanner.world.snapshot j.scanner.root task.path).map
      (Git.checkBinaryArgs ·.path)

/-- The report and the challenges of a finished tally. -/
def finish (r : Registry) (t : Tally) : Report × List Challenge :=
  let challenges := t.challenges.mergeSort (challengeLe r)
  ({ t.report with challenges := challenges.length }, challenges)

/-- How the workers of a run go about it: the tasks that they take up after a cancellation, and the
order in which the results of their attempts arrive. -/
structure Schedule where
  cancelled : Task → Bool
  arrival : List Attempt → List Attempt
  arrival_perm : ∀ attempts, (arrival attempts).Perm attempts

/-- The schedule in which results arrive in the order of the tasks. -/
def Schedule.inOrder (cancelled : Task → Bool) : Schedule :=
  ⟨cancelled, id, List.Perm.refl⟩

/-- The attempts at tasks, in the order in which their results arrive. -/
def Job.attempts (j : Job) (schedule : Schedule) (tasks : List Task) : List Attempt :=
  schedule.arrival (tasks.map fun task => j.attempt (schedule.cancelled task) task)

/-- The start of a run: the languages are checked, the root is opened and the files are chosen. -/
def prepare (e : Surroundings) (root : String) (o : Options) :
    Running (Scanner × Scanner.Outcome) := do
  Running.validate e.toolkit (namedLanguages e.registry o)
  let (scanner, warnings) ← Running.orFail .cannotOpen (Scanner.open e.world root o none)
  Running.say warnings
  let scan ← Running.orFail .cannotList (scanner.run e.registry none)
  Running.say scan.messages
  Running.validate e.toolkit (presentLanguages o scan.found)
  let total := scan.found.length
  let wanted ← Running.orFail .config (wantedWorkers e o)
  Running.say [startMessage scanner.root total (startedWorkers wanted total)]
  return (scanner, scan)

/-- The end of a run, which a fatal failure makes fail. -/
def conclude (r : Registry) (t : Tally) : Running (Report × List Challenge) :=
  match t.fatal with
  | some failure => throw (.grammar (.notReady failure))
  | none => do
    Running.say [endMessage (finish r t).1]
    return finish r t

/-- Extracts the challenges of a repository on some schedule. -/
def extractWith (e : Surroundings) (root : String) (o : Options) (schedule : Schedule) :
    Running Harvest := do
  let (scanner, scan) ← prepare e root o
  let job : Job := ⟨e.toolkit, e.registry, scanner⟩
  let tasks := tasksOf scan.found
  let attempts := job.attempts schedule tasks
  Running.say (attempts.flatMap Attempt.messages)
  let (report, challenges) ←
    conclude e.registry ((startTally scan.stats).addAll (attempts.map Attempt.result))
  return {
    challenges, report
    total := scan.found.length
    progress := progressPoints scan.found.length
    gitCalls := scan.gitCalls ++ job.gitQuestions (tasks.filter (!schedule.cancelled ·)) }

/-- Extracts the challenges of a repository file by file.  A run that was cancelled before it
started processes no file. -/
def extract (e : Surroundings) (root : String) (o : Options) (cancelled : Bool) :
    Running Harvest :=
  extractWith e root o (.inOrder fun _ => cancelled)

end CodeChallenges.Extraction

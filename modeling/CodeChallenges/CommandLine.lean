import CodeChallenges.CommandLine.Usage
import CodeChallenges.Extraction.Run
/-!
The command line program: it reads its arguments and its settings, extracts, and writes either a
summary or the challenges themselves.  Everything is checked before anything is written, so a run
that fails leaves no output.  An option that lacks its value is noticed only when the value is
needed.
-/

namespace CodeChallenges.CommandLine

open Extraction Repository

/-- What a run of the program leaves: its exit code, its two outputs, and a file with its text if
one is written. -/
structure Outcome where
  exitCode : Nat
  output : String := ""
  errorLines : List String := []
  written : Option (String × String) := none

/-- What ends the program without an outcome. -/
inductive Breakdown where
  | extraction (fault : RunFault)
  | missingNumber
  | missingGlob
  | cannotWrite (path : String) (fault : PathFault)

/-- The message about a program that ended without an outcome.  A number that is left out cannot be
compared with its bound, and a glob that is left out cannot be rid of its outer blanks. -/
def Breakdown.message : Breakdown → String
  | .extraction fault => fault.message
  | .missingNumber => "'<' not supported between instances of 'list' and 'int'"
  | .missingGlob => "'list' object has no attribute 'strip'"
  | .cannotWrite path fault => fault.message path

/-- An outcome that refuses the wishes of the user. -/
def usageFailure (message : String) : Outcome :=
  { exitCode := 2, errorLines := [s!"error: {message}"] }

/-- The options that arguments and settings ask for, without the languages. -/
def baseOptions (d : Draft) (c : Config) : Options :=
  { includes := d.includes
    excludes := d.excludes
    preserveEmptyLines := !d.collapseEmptyLines
    maxBlankRun := d.maxBlankRun
    maxFileBytes := c.maxFileBytes
    includeBlocks := d.blocks
    includeFileChunks := d.fileChunks
    useDefaultExcludes := !d.noDefaultExcludes
    workers := some (d.workers.getD c.workers) }

/-- What is wrong with the wishes of the user. -/
inductive Refusal where
  | told (message : String)
  | missingNumber

/-- A number that must not be below a bound, if it is given. -/
def checkNumber (d : Draft) (flag : Flag) (bound : Int) (value : Option Int) :
    Except Refusal Unit := do
  if d.leftOut.contains flag then throw .missingNumber
  if value.any (· < bound) then
    let names := "/".intercalate flag.names
    throw (.told s!"{names} must be >= {bound}")

/-- The options of a run, or what is wrong with the wishes. -/
def optionsOf (r : Registry) (d : Draft) (c : Config) : Except Refusal Options := do
  checkNumber d .workers 1 d.workers
  checkNumber d .maxBlankRun 0 (some d.maxBlankRun)
  ((baseOptions d c).restrictTo r d.languages).mapError fun names =>
    .told (Registry.unsupportedMessage names)

/-- How many items have each name. -/
def countBy {α : Type} (name : α → String) (items : List α) : List (String × Int) :=
  items.foldl (fun counts item => Report.countOne (name item) counts) []

/-- The summary of a run. -/
def summary (root : String) (report : Report) (challenges : List Challenge) : Json :=
  .obj [
    ("root", .str root),
    ("report", report.toJson),
    ("by_type", Report.countsJson (countBy (·.chunkType.tag) challenges)),
    ("by_language", Report.countsJson (countBy (·.language) challenges))]

/-- The root directory as the summary shows it: a leading tilde stays as it is. -/
def shownRoot (w : World) (root : String) : Except Breakdown String :=
  ((settledPlace w.snapshot w.workingDirectory root).map Place.text).mapError
    fun fault => .extraction (.cannotOpen fault)

/-- Where records go: nowhere, to the output, or to a file. -/
inductive Target where
  | nowhere
  | output
  | file (path : String)

/-- The target that a command line names. -/
def targetOf (named : Option String) : Target :=
  match named with
  | none => .nowhere
  | some path =>
    if path == "" then .nowhere else if path == "-" then .output else .file path

/-- Refuses a file that cannot be written. -/
def checkTarget (w : World) : Target → Except Breakdown Unit
  | .file path =>
    match w.snapshot.writeFault? w.workingDirectory path with
    | some fault => .error (.cannotWrite (Path.normalize path) fault)
    | none => .ok ()
  | _ => .ok ()

/-- The outcome of a successful run: the records go to the output or to a file if they are asked
for, and the summary to the output unless the records are there. -/
def success (w : World) (a : Arguments) (x : Harvest) (errorLines : List String) :
    Except Breakdown Outcome := do
  let target := targetOf a.draft.ndjson
  checkTarget w target
  let root ← shownRoot w a.root
  let records := Challenge.ndjson x.challenges
  let shown := (summary root x.report x.challenges).text ++ "\n"
  match target with
  | .nowhere => return { exitCode := 0, output := shown, errorLines }
  | .output => return { exitCode := 0, output := records, errorLines }
  | .file path =>
    return { exitCode := 0, output := shown, errorLines, written := some (path, records) }

/-- The message about a run that failed. -/
def failureMessage (fault : RunFault) : Log.Message :=
  ⟨.error, .commandLine, fault.message⟩

/-- What is noticed before a glob is missed, if one is left out: whatever is wrong with the root, and
with the exclude globs if only an include glob is left out. -/
def checkGlobs (w : World) (a : Arguments) (o : Options) : Except Breakdown Unit := do
  let wrap := fun fault => Breakdown.extraction (.cannotOpen fault)
  let lacksExclude := a.draft.leftOut.contains .excludeGlob
  if lacksExclude || a.draft.leftOut.contains .includeGlob then
    let _ ← (openRoot w a.root).mapError wrap
    if !lacksExclude then
      let _ ← (excludeGlobs o).mapError wrap
    throw .missingGlob

/-- The result of the extraction that a command line asks for, and what was said on the way. -/
def harvest (e : Surroundings) (a : Arguments) (o : Options) :
    Except Breakdown Harvest × List Log.Message :=
  match checkGlobs e.world a o with
  | .error breakdown => (.error breakdown, [])
  | .ok _ =>
    let (result, messages) := (extract e a.root o false).run []
    (result.mapError .extraction, messages)

/-- Runs an extraction with checked options.  A fault of the surroundings ends the program
itself. -/
def runExtraction (e : Surroundings) (a : Arguments) (c : Config) (o : Options) :
    Except Breakdown Outcome :=
  let shown := fun messages => (Log.fromRank c.logLevel messages).map Log.Message.line
  match harvest e a o with
  | (.ok x, messages) => success e.world a x (shown messages)
  | (.error (.extraction fault), messages) =>
    if fault.isOwn then
      .ok { exitCode := 1, errorLines := shown (messages ++ [failureMessage fault]) }
    else .error (.extraction fault)
  | (.error breakdown, _) => .error breakdown

/-- Runs the program on a command line without the name of the program. -/
def run (e : Surroundings) (words : List String) : Except Breakdown Outcome :=
  let width := lineWidth e.environment
  match parseArguments words with
  | .error .help => .ok { exitCode := 0, output := helpText width }
  | .error (.fault fault) => .ok { exitCode := 2, errorLines := faultLines width fault }
  | .ok a =>
    match Config.load e.environment e.processors with
    | .error fault => .ok (usageFailure fault.message)
    | .ok c =>
      match optionsOf e.registry a.draft c with
      | .error .missingNumber => .error .missingNumber
      | .error (.told message) => .ok (usageFailure message)
      | .ok o => runExtraction e a c o

end CodeChallenges.CommandLine

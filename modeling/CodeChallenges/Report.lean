import CodeChallenges.Json
import CodeChallenges.Names
/-!
The counters of one extraction.  Files that yield nothing are counted by reason.
-/

namespace CodeChallenges

/-- What happened to the files and chunks of one extraction. -/
structure Report where
  filesScanned : Int := 0
  filesProcessed : Int := 0
  unsupportedFiles : Int := 0
  excludedFiles : Int := 0
  candidateChunks : Int := 0
  droppedChunks : Int := 0
  challenges : Int := 0
  cancelled : Bool := false
  skipped : List (String × Int) := []

namespace Report

/-- Adds one to the count of a name, which starts at zero. -/
def countOne (name : String) : List (String × Int) → List (String × Int)
  | [] => [(name, 1)]
  | (key, n) :: rest => if key == name then (key, n + 1) :: rest else (key, n) :: countOne name rest

/-- Counts one skipped file. -/
def skip (r : Report) (reason : String) : Report :=
  { r with skipped := countOne reason r.skipped }

/-- The number of skipped files. -/
def skippedTotal (r : Report) : Int :=
  r.skipped.foldr (fun count total => count.2 + total) 0

/-- Counts as an object with ascending names. -/
def countsJson (counts : List (String × Int)) : Json :=
  .obj ((sortedByKey counts).map fun c => (c.1, .int c.2))

/-- A report as a record. -/
def toJson (r : Report) : Json :=
  .obj [
    ("files_scanned", .int r.filesScanned),
    ("files_processed", .int r.filesProcessed),
    ("unsupported_files", .int r.unsupportedFiles),
    ("excluded_files", .int r.excludedFiles),
    ("candidate_chunks", .int r.candidateChunks),
    ("dropped_chunks", .int r.droppedChunks),
    ("challenges", .int r.challenges),
    ("cancelled", .bool r.cancelled),
    ("skipped", countsJson r.skipped)]

end Report

end CodeChallenges

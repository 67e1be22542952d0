import CodeChallenges.Names
import CodeChallenges.Text.Blank
import CodeChallenges.Text.Lines
/-!
Asking git.  What a git command did is data: it ended with a code and two outputs, it was not
there to be started, or starting it failed.  `Git.output` turns that into the text that was asked
for or a cause of failure.
-/

namespace CodeChallenges.Git

/-- The kinds of failure to start a program. -/
inductive StartFault where
  | badValue
  | system
  | runtime
  deriving DecidableEq

/-- What one command did. -/
inductive Reply where
  | exited (code : Int) (stdout stderr : String)
  | missing
  | notStarted (fault : StartFault) (detail : String)

/-- Why there is no output. -/
inductive Failure where
  | notFound
  | failed (args : List String) (detail : String)
  | notStarted (fault : StartFault) (detail : String)
  deriving DecidableEq

/-- The message for a failure. -/
def Failure.message : Failure → String
  | .notFound => "git not found on PATH"
  | .failed args detail =>
    let command := " ".intercalate args
    s!"git {command} failed: {detail}"
  | .notStarted _ detail => detail

/-- Failures after which the files can still be listed by walking the directories. -/
def Failure.allowsWalk : Failure → Bool
  | .notFound => true
  | .failed .. => true
  | .notStarted .runtime _ => true
  | .notStarted _ _ => false

/-- Failures that leave a question about one file open without harm. -/
def Failure.isHarmless : Failure → Bool
  | .notStarted .badValue _ => false
  | _ => true

/-- The words of a command line, in front of which paths are asked to be written as they are. -/
def commandLine (args : List String) : List String :=
  "git" :: "-c" :: "core.quotepath=off" :: args

/-- The first text that is not blank, without blanks at its ends. -/
def firstDetail : List String → String
  | [] => "unknown git error"
  | text :: rest =>
    let detail := Text.trimmed text
    if detail == "" then firstDetail rest else detail

/-- The output of a command, or why there is none. -/
def output (args : List String) : Reply → Except Failure String
  | .exited code stdout stderr =>
    if code == 0 then .ok stdout else .error (.failed args (firstDetail [stderr, stdout]))
  | .missing => .error .notFound
  | .notStarted fault detail => .error (.notStarted fault detail)

/-- The arguments that ask for a listing with a null character after each path. -/
def listingArgs (args : List String) : List String :=
  args ++ ["-z"]

/-- The paths of such a listing, ascending, each once. -/
def pathsOf (listing : String) : List String :=
  let parts := (Text.splitOnChar (Char.ofNat 0) listing.toList).map String.ofList
  sortedNames (parts.filter (· != ""))

/-- The paths that a listing command prints. -/
def listPaths (args : List String) (reply : Reply) : Except Failure (List String) :=
  (output (listingArgs args) reply).map pathsOf

/-- The arguments that list tracked files and files that are neither tracked nor ignored. -/
def lsFilesArgs : List String :=
  ["ls-files", "--cached", "--others", "--exclude-standard"]

/-- The arguments that ask whether a path is marked as binary. -/
def checkBinaryArgs (path : String) : List String :=
  ["check-attr", "binary", "--", path]

end CodeChallenges.Git

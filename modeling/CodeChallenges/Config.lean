import CodeChallenges.Options
import CodeChallenges.Text.Integer
import CodeChallenges.Text.LetterCase
import CodeChallenges.Text.Quoted
/-!
Settings from the environment: the number of workers, the largest file that is read, and the level
from which on messages are shown.  A blank variable counts as absent; a variable that cannot be
read is an error that names it.
-/

namespace CodeChallenges

/-- Variables with their values. -/
abbrev Environment := List (String × String)

/-- Settings of the program. -/
structure Config where
  workers : Int
  maxFileBytes : Int
  logLevel : Nat
  deriving DecidableEq

namespace Config

/-- Why a variable cannot be read. -/
inductive Fault where
  | notInteger (name raw : String)
  | tooSmall (name : String) (minimum value : Int)
  | notLevel (name raw : String)
  deriving DecidableEq

/-- The message for a fault. -/
def Fault.message : Fault → String
  | .notInteger name raw => s!"{name} must be an integer, got {Text.quoted raw}"
  | .tooSmall name minimum value => s!"{name} must be >= {minimum}, got {value}"
  | .notLevel name raw => s!"{name} must be a logging level name, got {Text.quoted raw}"

/-- The most workers that are taken by default. -/
def maxDefaultWorkers : Nat := 8

/-- One worker for each processor, within bounds; an unknown number of processors counts as
one. -/
def defaultWorkers (processors : Option Nat) : Nat :=
  max 1 (min maxDefaultWorkers (processors.getD 1))

/-- The variable that holds the number of workers. -/
def workersVariable : String := "GITTYPE_WORKERS"

/-- The variable that holds the size of the largest file that is read. -/
def maxFileBytesVariable : String := "GITTYPE_MAX_FILE_BYTES"

/-- The variable that holds the level from which on messages are shown. -/
def logLevelVariable : String := "GITTYPE_LOG_LEVEL"

/-- The value of a variable without outer blanks. -/
def valueOf (env : Environment) (name : String) : String :=
  Text.trimmed ((env.lookup name).getD "")

/-- The number in a variable, at least `minimum`. -/
def integerOf (env : Environment) (name : String) (default minimum : Int) :
    Except Fault Int :=
  let raw := valueOf env name
  if raw == "" then .ok default
  else match Text.readInt? raw.toList with
    | none => .error (.notInteger name raw)
    | some value =>
      if value < minimum then .error (.tooSmall name minimum value) else .ok value

/-- The names of message levels. -/
def levels : List (String × Nat) := [
  ("CRITICAL", 50), ("FATAL", 50), ("ERROR", 40), ("WARN", 30), ("WARNING", 30), ("INFO", 20),
  ("DEBUG", 10), ("NOTSET", 0)]

/-- The level named in a variable, in any case. -/
def levelOf (env : Environment) (name : String) : Except Fault Nat :=
  let raw := Text.uppered (valueOf env name)
  match levels.lookup (if raw == "" then "INFO" else raw) with
  | some level => .ok level
  | none => .error (.notLevel name raw)

/-- The settings of an environment on a machine with the given number of processors. -/
def load (env : Environment) (processors : Option Nat) : Except Fault Config := do
  let workers ← integerOf env workersVariable (defaultWorkers processors) 1
  let maxFileBytes ← integerOf env maxFileBytesVariable defaultMaxFileBytes 1
  let logLevel ← levelOf env logLevelVariable
  return { workers, maxFileBytes, logLevel }

end Config

end CodeChallenges

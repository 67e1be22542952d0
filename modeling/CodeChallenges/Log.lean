/-!
Messages about a run: each has a level and comes from one part of the program.
-/

namespace CodeChallenges.Log

/-- How grave a message is. -/
inductive Level where
  | debug
  | info
  | warning
  | error
  deriving DecidableEq

/-- The name of a level. -/
def Level.name : Level → String
  | .debug => "DEBUG"
  | .info => "INFO"
  | .warning => "WARNING"
  | .error => "ERROR"

/-- The rank of a level among the levels that can be asked for. -/
def Level.rank : Level → Nat
  | .debug => 10
  | .info => 20
  | .warning => 30
  | .error => 40

/-- The parts of the program that have something to say. -/
inductive Source where
  | scanner
  | parsers
  | candidates
  | selection
  | extraction
  | commandLine
  deriving DecidableEq

/-- The name under which a part speaks. -/
def Source.name : Source → String
  | .scanner => "gittype_extractor.scanner"
  | .parsers => "gittype_extractor.parser_pool"
  | .candidates => "gittype_extractor.chunker"
  | .selection => "gittype_extractor.resolver"
  | .extraction => "gittype_extractor.pipeline"
  | .commandLine => "gittype_extractor.cli"

/-- A message. -/
structure Message where
  level : Level
  source : Source
  text : String
  deriving DecidableEq

/-- A message as one line. -/
def Message.line (m : Message) : String :=
  s!"{m.level.name} {m.source.name}: {m.text}"

/-- The messages of at least a given rank. -/
def fromRank (rank : Nat) (messages : List Message) : List Message :=
  messages.filter fun m => rank ≤ m.level.rank

end CodeChallenges.Log

import CodeChallenges.Candidates
import CodeChallenges.Log
import CodeChallenges.Tree.Pattern.Reader
/-!
Grammars and the patterns of a language.  A grammar parses files and says which pattern texts it
accepts; a language is ready when its grammar loads, a parser can be built from it, and at least
one structural pattern is accepted.
-/

namespace CodeChallenges

/-- What a grammar can and cannot do. -/
structure Grammar where
  /-- Why no parser can be built. -/
  parserFault : Option String
  /-- Why a pattern text is not accepted. -/
  patternFault : String → Option String

/-- The grammars at hand: each name loads or says why not. -/
abbrev Grammars := String → Except String Grammar

namespace Grammar

/-- A grammar that accepts every pattern that can be read. -/
def standard : Grammar :=
  ⟨none, fun text => if (Tree.Pattern.rulesOf? text).isSome then none else some "Invalid syntax"⟩

/-- The grammars of the given languages, and no other. -/
def only (names : List String) : Grammars := fun name =>
  if names.contains name then .ok standard
  else .error s!"Could not find language library for {name}"

/-- Why a language is not ready. -/
inductive Cause where
  | unavailable (grammar detail : String)
  | noParser (detail : String)
  | noPattern
  deriving DecidableEq

/-- A language that is not ready, and why. -/
structure Failure where
  language : String
  cause : Cause
  deriving DecidableEq

/-- The words for a cause. -/
def Cause.message : Cause → String
  | .unavailable grammar detail => s!"grammar {Text.quoted grammar} unavailable ({detail})"
  | .noParser detail => detail
  | .noPattern => "no structural query pattern compiled"

/-- The message for a language that is not ready. -/
def Failure.message (f : Failure) : String :=
  s!"Failed to initialize grammar for {f.language}: {f.cause.message}"

/-- Loads the grammar of a language. -/
def load (grammars : Grammars) (l : Language) : Except Failure Grammar :=
  (grammars l.grammar).mapError fun detail => ⟨l.name, .unavailable l.grammar detail⟩

/-- Checks that a parser can be built. -/
def buildParser (l : Language) (g : Grammar) : Except Failure Unit :=
  match g.parserFault with
  | none => .ok ()
  | some detail => .error ⟨l.name, .noParser detail⟩

/-- The accepted pattern texts of a language, without blanks at their ends. -/
structure Patterns where
  structural : List String
  blocks : List String
  deriving DecidableEq

/-- Pattern texts without blanks at their ends; blank ones do not count. -/
def trimPatterns (patterns : List String) : List String :=
  (patterns.map Text.trimmed).filter (· != "")

/-- The pattern texts that a grammar accepts. -/
def accepted (g : Grammar) (patterns : List String) : List String :=
  (trimPatterns patterns).filter fun p => (g.patternFault p).isNone

/-- The accepted patterns of a language; at least one structural pattern is needed. -/
def compile (l : Language) (g : Grammar) : Except Failure Patterns :=
  match g.accepted l.patterns with
  | [] => .error ⟨l.name, .noPattern⟩
  | structural => .ok ⟨structural, g.accepted l.blockPatterns⟩

/-- Makes a language ready: its grammar is loaded, a parser built, and its patterns compiled. -/
def prepare (grammars : Grammars) (l : Language) : Except Failure Patterns := do
  let g ← load grammars l
  buildParser l g
  compile l g

/-- The query of a pattern text over a source. -/
def queryOfText (source : List UInt8) (text : String) : Tree.Query :=
  Tree.queryOf ((Tree.Pattern.rulesOf? text).getD []) source

/-- The queries of accepted patterns over a source. -/
def Patterns.queries (p : Patterns) (source : List UInt8) : Queries :=
  ⟨p.structural.map (queryOfText source), p.blocks.map (queryOfText source)⟩

end Grammar

end CodeChallenges

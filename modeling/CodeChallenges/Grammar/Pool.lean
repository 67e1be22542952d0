import CodeChallenges.Grammar
/-!
Pools of parsers.  A pool belongs to one worker and remembers, by the name of the language, the
grammars it has loaded, the parsers it has built and the patterns it has compiled, so that each is
made once; a failure is not remembered.  What happens is recorded in a session, which all pools
share and which says once of each faulty pattern that it is skipped.
-/

namespace CodeChallenges.Grammar

/-- What a pool does to the grammars and parsers outside. -/
inductive Event where
  | load (grammar : String)
  | build (grammar : String)
  | compile (grammar pattern : String)
  | reset (parser : Nat)
  | parse (parser : Nat) (content : String)
  deriving DecidableEq

/-- What has happened so far, latest first; `made` counts parsers and sets of patterns. -/
structure Session where
  events : List Event := []
  warned : List (String × String) := []
  messages : List Log.Message := []
  made : Nat := 0

/-- The parsers of one worker.  Parsers and sets of patterns are known by numbers. -/
structure Pool where
  owner : Nat
  grammars : List (String × Grammar) := []
  parsers : List (String × Nat) := []
  patterns : List (String × Nat × Patterns) := []

/-- Why a pool does not do what it is asked. -/
inductive PoolFault where
  | notOwner
  | notReady (failure : Failure)
  deriving DecidableEq

/-- The message for a fault. -/
def PoolFault.message : PoolFault → String
  | .notOwner => "ParserPool used from a thread that does not own it"
  | .notReady failure => failure.message

/-- Steps that record what happens in a session, also when they fail. -/
abbrev Recorded := ExceptT PoolFault (StateM Session)

/-- Steps of one pool. -/
abbrev Pooled := ExceptT PoolFault (StateM (Session × Pool))

namespace Recorded

/-- Records an event. -/
def note (event : Event) : Recorded Unit :=
  modify fun s => { s with events := event :: s.events }

/-- A number for something new. -/
def fresh : Recorded Nat :=
  modifyGet fun s => (s.made, { s with made := s.made + 1 })

/-- Says of a pattern of a language that it is skipped, unless that has been said. -/
def warnOnce (l : Language) (pattern detail : String) : Recorded Unit :=
  modify fun s =>
    if s.warned.contains (l.name, pattern) then s
    else
      let text := s!"Skipping invalid {l.name} pattern {Text.quoted pattern}: {detail}"
      { s with
        warned := (l.name, pattern) :: s.warned
        messages := s.messages ++ [⟨.warning, .parsers, text⟩] }

/-- Loads the grammar of a language. -/
def loadGrammar (grammars : Grammars) (l : Language) : Recorded Grammar := do
  note (.load l.grammar)
  match load grammars l with
  | .ok g => return g
  | .error failure => throw (.notReady failure)

/-- Compiles pattern texts one by one and skips the faulty ones. -/
def compileEach (l : Language) (g : Grammar) : List String → Recorded (List String)
  | [] => return []
  | pattern :: rest => do
    note (.compile l.grammar pattern)
    match g.patternFault pattern with
    | none => return pattern :: (← compileEach l g rest)
    | some detail =>
      warnOnce l pattern detail
      compileEach l g rest

/-- Compiles the patterns of a language; block patterns only after a structural pattern. -/
def compileAll (l : Language) (g : Grammar) : Recorded (Nat × Patterns) := do
  let structural ← compileEach l g (trimPatterns l.patterns)
  if structural.isEmpty then throw (.notReady ⟨l.name, .noPattern⟩)
  let blocks ← compileEach l g (trimPatterns l.blockPatterns)
  return (← fresh, ⟨structural, blocks⟩)

/-- Loads the grammar of a language and compiles its patterns outside any pool. -/
def compileAlone (grammars : Grammars) (l : Language) : Recorded (Nat × Patterns) := do
  compileAll l (← loadGrammar grammars l)

/-- A recorded step as a step of a pool. -/
def pooled {α : Type} (step : Recorded α) : Pooled α := fun (s, p) =>
  let (result, s) := step s
  (result, (s, p))

end Recorded

namespace Pool

/-- Refuses every worker but the owner. -/
def checkOwner (worker : Nat) : Pooled Unit := do
  if (← get).2.owner == worker then return () else throw .notOwner

/-- Changes the pool and leaves the session alone. -/
def remember (change : Pool → Pool) : Pooled Unit :=
  modify fun (s, p) => (s, change p)

/-- The grammar of a language, loaded at the first call. -/
def grammar (grammars : Grammars) (l : Language) : Pooled Grammar := do
  match (← get).2.grammars.lookup l.name with
  | some g => return g
  | none =>
    let g ← (Recorded.loadGrammar grammars l).pooled
    remember fun p => { p with grammars := (l.name, g) :: p.grammars }
    return g

/-- The parser of a language, built at the first call. -/
def acquire (grammars : Grammars) (worker : Nat) (l : Language) : Pooled Nat := do
  checkOwner worker
  match (← get).2.parsers.lookup l.name with
  | some parser => return parser
  | none =>
    let g ← grammar grammars l
    (Recorded.note (.build l.grammar)).pooled
    match buildParser l g with
    | .error failure => throw (.notReady failure)
    | .ok () =>
      let parser ← Recorded.fresh.pooled
      remember fun p => { p with parsers := (l.name, parser) :: p.parsers }
      return parser

/-- The patterns of a language, compiled at the first call. -/
def queries (grammars : Grammars) (worker : Nat) (l : Language) : Pooled (Nat × Patterns) := do
  checkOwner worker
  match (← get).2.patterns.lookup l.name with
  | some compiled => return compiled
  | none =>
    let g ← grammar grammars l
    let compiled ← (Recorded.compileAll l g).pooled
    remember fun p => { p with patterns := (l.name, compiled) :: p.patterns }
    return compiled

/-- Parses a content with the parser of a language, from a clean state. -/
def parse (grammars : Grammars) (worker : Nat) (l : Language) (content : String) :
    Pooled Unit := do
  let parser ← acquire grammars worker l
  (Recorded.note (.reset parser)).pooled
  (Recorded.note (.parse parser content)).pooled

/-- Makes languages ready, one after another, up to the first failure. -/
def preload (grammars : Grammars) (worker : Nat) : List Language → Pooled Unit
  | [] => return ()
  | l :: rest => do
    let _ ← acquire grammars worker l
    let _ ← queries grammars worker l
    preload grammars worker rest

end Pool

/-- Makes languages ready in a new pool: the messages on the way, and the first failure. -/
def validate (grammars : Grammars) (languages : List Language) :
    Except PoolFault Unit × List Log.Message :=
  let (result, (session, _)) := (Pool.preload grammars 0 languages).run ({}, { owner := 0 })
  (result, session.messages)

end CodeChallenges.Grammar

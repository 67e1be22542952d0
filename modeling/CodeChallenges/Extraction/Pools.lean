import CodeChallenges.Extraction.Run
/-!
Files that are processed with parsers from a pool.  Each worker of a run has a pool of its own, empty
at the start.  When a file comes to be parsed, the pool is asked for the parser of its language, and
after that for the patterns; a file that is skipped before does not touch the pool.
-/

namespace CodeChallenges.Extraction

open Repository
open Grammar (Pool Pooled PoolFault Session)

/-- The content of a file that comes to be parsed: it can be read, and it is not too large, not
binary and well-formed. -/
def parsed? (o : Options) (s : Snapshot) (root : Place) (git : Option GitService) (path : String) :
    Option (List UInt8) :=
  (s.read? root path).filter fun content =>
    content.length ≤ o.maxFileBytes &&
      (match BinaryContent.isBinary (binaryAnswer git path) (some content) with
        | .ok binary => !binary
        | .error _ => false) &&
      Text.Utf8.isValid content

/-- The challenges of the content of a file that is text, parsed with a parser from the pool of a
worker. -/
def processTextIn (t : Toolkit) (r : Registry) (o : Options) (worker : Nat) (l : Language)
    (path : String) (content : List UInt8) : Pooled (Except Fault Processed) := do
  Pool.parse t.grammars worker l (String.ofList (Text.Utf8.decodeLossy content))
  let (_, patterns) ← Pool.queries t.grammars worker l
  let s := Candidates.Setting.ofFile l path content
  return processTree r o s (patterns.queries content) (t.parse l content)

/-- The content of the file of a task, if it comes to be parsed. -/
def Job.parsed? (j : Job) (task : Task) : Option (List UInt8) :=
  Extraction.parsed? j.scanner.options j.scanner.world.snapshot j.scanner.root j.git task.path

/-- Processes the file of a task with the pool of a worker. -/
def Job.processIn (j : Job) (worker : Nat) (task : Task) : Pooled (Except Fault Processed) :=
  match j.parsed? task with
  | none => return j.process task
  | some content =>
    processTextIn j.toolkit j.registry j.scanner.options worker task.language task.path content

/-- A worker has processed the file of a task, and this came of it. -/
structure Call where
  worker : Nat
  task : Task
  result : Except PoolFault (Except Fault Processed)

/-- Calls of workers that process tasks, each worker with the pool that its last call has left.  Any
worker may have any of the tasks, in any order, and find whatever others have left in the session;
the calls of every run are among these. -/
inductive Calls (j : Job) (tasks : List Task) : List Call → (Nat → Pool) → Prop
  | start : Calls j tasks [] fun worker => { owner := worker }
  | more {calls : List Call} {pools : Nat → Pool} {task : Task} {session session' : Session}
      {pool : Pool} {result : Except PoolFault (Except Fault Processed)} (worker : Nat) :
      Calls j tasks calls pools → task ∈ tasks →
      (j.processIn worker task).run (session, pools worker) = (result, (session', pool)) →
      Calls j tasks (calls ++ [⟨worker, task, result⟩])
        fun other => if other = worker then pool else pools other

/-- A call ends with an error of a grammar. -/
def Call.IsGrammarError (c : Call) : Prop :=
  ∃ failure, c.result = .error (.notReady failure) ∨ c.result = .ok (.error (.grammar failure))

end CodeChallenges.Extraction

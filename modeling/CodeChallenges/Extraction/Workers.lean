import CodeChallenges.Extraction.Run
/-!
The workers of a run, step by step.  Tasks wait in a queue, and behind them one sentinel for each
worker.  A worker takes what is at the head of the queue, looks whether the run is cancelled, and
gives a result, round after round, until it comes to a sentinel.  The results wait in a second
queue, from which as many are received and counted as there are tasks.  The steps of the workers,
of the counting, and of whoever cancels the run come in any order.
-/

namespace CodeChallenges.Extraction.Workers

open Repository

/-- Where a worker is in its round: about to take from the queue, with a task whose check is still
to come, or with an attempt whose result is still to be delivered.  A stopped worker has come to a
sentinel. -/
inductive Worker where
  | idle
  | holding (task : Task)
  | working (attempt : Attempt)
  | stopped

/-- A state of a run.  In the queue a sentinel stands as `none`; `received` is the result that is
to be counted next, and `flag` says that the run is cancelled. -/
structure State where
  queue : List (Option Task)
  workers : List Worker
  waiting : List Result
  received : Option Result
  counted : List Result
  tally : Tally
  flag : Bool

/-- What happens in a step, with the worker who does it. -/
inductive Event where
  | flagSet
  | taken (worker : Nat) (task : Task)
  | stopped (worker : Nat)
  | checked (worker : Nat) (attempt : Attempt)
  | delivered (worker : Nat) (attempt : Attempt)
  | received (result : Result)
  | counted (result : Result)

/-- The worker whose step an event is. -/
def Event.worker? : Event → Option Nat
  | .taken worker _ | .stopped worker | .checked worker _ | .delivered worker _ => some worker
  | .flagSet | .received _ | .counted _ => none

/-- Whether a result cancels the run. -/
def isFatal (result : Result) : Bool :=
  match result.ending with
  | .fatal _ => true
  | _ => false

/-- Whether the run is cancelled from an event on. -/
def Event.setsFlag : Event → Bool
  | .flagSet => true
  | .counted result => isFatal result
  | _ => false

/-- The steps of a run over `total` tasks. -/
inductive Step (j : Job) (total : Nat) : State → Event → State → Prop
  /-- The caller may cancel the run at any time. -/
  | setFlag {s : State} : Step j total s .flagSet { s with flag := true }
  /-- An idle worker takes the task at the head of the queue. -/
  | take {s : State} {task : Task} {queue : List (Option Task)} {worker : Nat} :
      s.queue = some task :: queue → s.workers[worker]? = some .idle →
      Step j total s (.taken worker task)
        { s with queue, workers := s.workers.set worker (.holding task) }
  /-- An idle worker takes a sentinel, and stops. -/
  | stop {s : State} {queue : List (Option Task)} {worker : Nat} :
      s.queue = none :: queue → s.workers[worker]? = some .idle →
      Step j total s (.stopped worker)
        { s with queue, workers := s.workers.set worker .stopped }
  /-- A worker looks at the flag, and gives its task up or processes it. -/
  | check {s : State} {task : Task} {worker : Nat} :
      s.workers[worker]? = some (.holding task) →
      Step j total s (.checked worker (j.attempt s.flag task))
        { s with workers := s.workers.set worker (.working (j.attempt s.flag task)) }
  /-- A worker puts its result into the queue of results, and begins another round. -/
  | deliver {s : State} {attempt : Attempt} {worker : Nat} :
      s.workers[worker]? = some (.working attempt) →
      Step j total s (.delivered worker attempt)
        { s with
          workers := s.workers.set worker .idle
          waiting := s.waiting ++ [attempt.result] }
  /-- The first of the waiting results is received, if not all have been counted. -/
  | receive {s : State} {result : Result} {waiting : List Result} :
      s.waiting = result :: waiting → s.received = none → s.counted.length < total →
      Step j total s (.received result) { s with waiting, received := some result }
  /-- The received result is counted, and cancels the run if it is fatal. -/
  | count {s : State} {result : Result} :
      s.received = some result →
      Step j total s (.counted result)
        { s with
          received := none
          counted := s.counted ++ [result]
          tally := s.tally.add result
          flag := s.flag || isFatal result }

/-- The state before any step. -/
def State.start (scan : Scanner.Outcome) (workers : Nat) : State where
  queue := (tasksOf scan.found).map some ++ List.replicate workers none
  workers := List.replicate workers .idle
  waiting := []
  received := none
  counted := []
  tally := startTally scan.stats
  flag := false

/-- A run over chosen files comes to a state by a sequence of events, when `wanted` workers are
asked for. -/
inductive Run (j : Job) (scan : Scanner.Outcome) (wanted : Int) : List Event → State → Prop
  | start : Run j scan wanted []
      (State.start scan (startedWorkers wanted scan.found.length).toNat)
  | step {events : List Event} {s s' : State} {event : Event} :
      Run j scan wanted events s → Step j scan.found.length s event s' →
      Run j scan wanted (events ++ [event]) s'

/-- The tasks that wait in the queue. -/
def State.queued (s : State) : List Task :=
  s.queue.filterMap id

/-- The task that a worker has. -/
def Worker.task? : Worker → Option Task
  | .holding task => some task
  | .working attempt => some attempt.task
  | .idle | .stopped => none

/-- The tasks that workers have. -/
def State.held (s : State) : List Task :=
  s.workers.filterMap Worker.task?

/-- The results that have been received: those that are counted and the one that will be next. -/
def State.consumed (s : State) : List Result :=
  s.counted ++ s.received.toList

end CodeChallenges.Extraction.Workers

import CodeChallenges.Proofs.Extraction.Schedule
import CodeChallenges.Proofs.Extraction.Workers
/-!
# Runs of workers come to an end

A worker that has not stopped can always take a step, so that the count of results never waits in
vain (`Run.waiting_or_step`).  A task whose check comes after the flag was set is cancelled, and the
report tells of a cancellation exactly if there was such a task.

Every step but the setting of the flag brings a run nearer to its end (`Step.remaining_eq`), so that
every run can be completed (`Run.exists_complete`), and at the end all results are counted.  What
they amount to is what the results of a schedule amount to: the one that gives up the tasks that were
checked late, and in which results arrive as they were delivered (`Run.exists_schedule`).
-/

namespace CodeChallenges.Extraction

open Repository (Scanner)
open Repository.Scanner (sampleLanguage sampleScanner)

namespace Workers

variable {j : Job} {scan : Scanner.Outcome} {wanted : Int} {events : List Event} {s : State}

/-! ## Progress -/

/-- A worker that has not stopped can always take a step: the queue is not empty before all workers
have stopped. -/
theorem Run.worker_steps (h : Run j scan wanted events s) {w : Nat} {worker : Worker}
    (hw : s.workers[w]? = some worker) (hlive : worker.isStopped = false) :
    ∃ event s', Step j scan.found.length s event s' ∧ event.worker? = some w := by
  cases worker with
  | idle =>
      cases hqueue : s.queue with
      | nil =>
          have hsentinels := h.ordered.sentinels_eq
          rw [hqueue, List.countP_nil, Nat.zero_add, List.countP_eq_length] at hsentinels
          rw [hsentinels _ (List.mem_of_getElem? hw)] at hlive
          cases hlive
      | cons head queue =>
          cases head with
          | none => exact ⟨_, _, .stop hqueue hw, rfl⟩
          | some task => exact ⟨_, _, .take hqueue hw, rfl⟩
  | holding task => exact ⟨_, _, .check hw, rfl⟩
  | working attempt => exact ⟨_, _, .deliver hw, rfl⟩
  | stopped => cases hlive

/-- While a task is queued or held, some worker has not stopped. -/
theorem Run.exists_live (h : Run j scan wanted events s) (htasks : s.queued ++ s.held ≠ []) :
    ∃ (w : Nat) (worker : Worker), s.workers[w]? = some worker ∧ worker.isStopped = false := by
  by_cases hheld : s.held = []
  · rw [hheld, List.append_nil] at htasks
    have hpos := h.workers_pos
    refine ⟨0, s.workers[0], List.getElem?_eq_getElem hpos, ?_⟩
    rw [Bool.eq_false_iff]
    intro hstopped
    refine htasks (h.ordered.queued_of_stopped ?_)
    rw [← Worker.isStopped_iff.mp hstopped]
    exact List.getElem_mem hpos
  · obtain ⟨task, htask⟩ := List.exists_mem_of_ne_nil _ hheld
    obtain ⟨worker, hworker, htask⟩ := List.mem_filterMap.mp htask
    obtain ⟨w, hw⟩ := List.getElem?_of_mem hworker
    refine ⟨w, worker, hw, ?_⟩
    cases worker with
    | stopped => cases htask
    | idle | holding task | working attempt => rfl

/-- **A run is not stuck**: while not all results are received, one is waiting or a worker can take
a step. -/
theorem Run.waiting_or_step (h : Run j scan wanted events s)
    (hmore : s.consumed.length < scan.found.length) :
    s.waiting ≠ [] ∨ ∃ event s', Step j scan.found.length s event s' ∧
      event.worker?.isSome = true := by
  by_cases hwaiting : s.waiting = []
  · have hlength := h.partition.length_eq
    simp only [List.length_append, List.length_map, hwaiting, List.length_nil,
      length_tasksOf] at hlength
    have hsome : s.queued ++ s.held ≠ [] := by
      rw [← List.length_pos_iff, List.length_append]
      omega
    obtain ⟨w, worker, hw, hlive⟩ := h.exists_live hsome
    obtain ⟨event, s', hstep, hworker⟩ := h.worker_steps hw hlive
    exact .inr ⟨event, s', hstep, by rw [hworker]; rfl⟩
  · exact .inl hwaiting

/-! ## Cancellation -/

/-- The check of a task comes after the flag was set. -/
def CheckedLate (events : List Event) (task : Task) : Prop :=
  ∃ before w attempt after, events = before ++ .checked w attempt :: after ∧
    attempt.task = task ∧ before.any Event.setsFlag = true

theorem outcome_attempt_eq_none_iff {cancelled : Bool} {task : Task} :
    (j.attempt cancelled task).outcome = none ↔ cancelled = true := by
  cases cancelled with
  | true => exact iff_of_true rfl rfl
  | false => exact iff_of_false (fun h => by cases h) (fun h => by cases h)

/-- Nothing but a cancellation ends a task as cancelled. -/
theorem ending_eq_cancelled_iff {attempt : Attempt} :
    attempt.result.ending = .cancelled ↔ attempt.outcome = none := by
  obtain ⟨task, outcome⟩ := attempt
  cases outcome with
  | none => exact iff_of_true rfl rfl
  | some outcome =>
      refine iff_of_false (fun h => ?_) (fun h => by cases h)
      revert h
      show endingOf outcome ≠ .cancelled
      rcases outcome with fault | ⟨⟨reason⟩ | ⟨count, made⟩, dropped, messages⟩
      · cases fault <;> exact fun h => by cases h
      · exact fun h => by cases h
      · exact fun h => by cases h

/-- The tasks that are checked late are those whose attempts came to nothing. -/
theorem Run.checkedLate_iff (h : Run j scan wanted events s) {task : Task} :
    CheckedLate events task ↔
      ∃ attempt ∈ begunIn events, attempt.task = task ∧ attempt.outcome = none := by
  constructor
  · rintro ⟨before, w, attempt, after, rfl, htask, hset⟩
    refine ⟨attempt, ?_, htask, ?_⟩
    · exact List.mem_filterMap.mpr ⟨.checked w attempt, by simp, rfl⟩
    · rw [h.checked_eq rfl, hset]
      rfl
  · rintro ⟨attempt, hattempt, htask, hnone⟩
    obtain ⟨event, hevent, hbegun⟩ := List.mem_filterMap.mp hattempt
    cases event with
    | checked w attempt' =>
        cases hbegun
        obtain ⟨before, after, rfl⟩ := List.append_of_mem hevent
        refine ⟨before, w, attempt, after, rfl, htask, ?_⟩
        rw [h.checked_eq rfl] at hnone
        exact outcome_attempt_eq_none_iff.mp hnone
    | _ => cases hbegun

/-- Every result that has been delivered is that of an attempt that was begun. -/
theorem Run.exists_begun (h : Run j scan wanted events s) {result : Result}
    (hresult : result ∈ s.consumed ++ s.waiting) :
    ∃ attempt ∈ begunIn events, attempt.result = result := by
  rw [h.results_eq] at hresult
  obtain ⟨attempt, hattempt, rfl⟩ := List.mem_map.mp hresult
  exact ⟨attempt, h.attempts_perm.mem_iff.mp (List.mem_append_right _ hattempt), rfl⟩

/-- No two attempts are at tasks of the same key. -/
theorem Run.begun_unique (h : Run j scan wanted events s) {attempt attempt' : Attempt}
    (ha : attempt ∈ begunIn events) (ha' : attempt' ∈ begunIn events)
    (hkey : attempt.task.key = attempt'.task.key) : attempt = attempt' := by
  have hnodup := nodup_keys_tasksOf scan.found
  rw [← (h.tasks_perm.map Task.key).nodup_iff, List.map_append, List.map_map] at hnodup
  exact List.inj_on_of_nodup_map (List.nodup_append.mp hnodup).2.1 ha ha' hkey

/-- **A task that is checked late** is cancelled. -/
theorem Run.cancelled_of_checkedLate (h : Run j scan wanted events s) {task : Task}
    (hlate : CheckedLate events task) {result : Result} (hresult : result ∈ s.consumed ++ s.waiting)
    (hkey : result.key = task.key) : result.ending = .cancelled := by
  obtain ⟨attempt, hattempt, rfl, hnone⟩ := h.checkedLate_iff.mp hlate
  obtain ⟨attempt', hattempt', rfl⟩ := h.exists_begun hresult
  rw [h.begun_unique hattempt' hattempt hkey]
  exact ending_eq_cancelled_iff.mpr hnone

theorem Run.tally_adds (h : Run j scan wanted events s) :
    (startTally scan.stats).Adds s.counted s.tally :=
  h.tally_eq ▸ Tally.adds_addAll _ _

/-- When all results are counted, none is left elsewhere. -/
theorem Run.counted_eq (h : Run j scan wanted events s)
    (hall : s.counted.length = scan.found.length) :
    s.counted = (deliveredIn events).map Attempt.result ∧
      (deliveredIn events).Perm (begunIn events) ∧
      ((begunIn events).map Attempt.task).Perm (tasksOf scan.found) := by
  have hresults := congrArg List.length h.results_eq
  have hattempts := h.attempts_perm.length_eq
  have hlength := h.tasks_perm.length_eq
  simp only [State.consumed, List.length_append, List.length_map, length_tasksOf]
    at hresults hattempts hlength
  have hreceived : s.received.toList = [] := List.eq_nil_of_length_eq_zero (by omega)
  have hwaiting : s.waiting = [] := List.eq_nil_of_length_eq_zero (by omega)
  have hworking : s.working = [] := List.eq_nil_of_length_eq_zero (by omega)
  have hqueued : s.queued = [] := List.eq_nil_of_length_eq_zero (by omega)
  have hholding : s.holding = [] := List.eq_nil_of_length_eq_zero (by omega)
  refine ⟨?_, ?_, ?_⟩
  · rw [← h.results_eq, State.consumed, hreceived, hwaiting, List.append_nil, List.append_nil]
  · have hperm := h.attempts_perm
    rwa [hworking] at hperm
  · have hperm := h.tasks_perm
    rwa [hqueued, hholding] at hperm

/-- When all results are counted, the report says that the run was cancelled exactly if the check of
some task came late. -/
theorem Run.cancelled_iff (h : Run j scan wanted events s)
    (hall : s.counted.length = scan.found.length) :
    s.tally.report.cancelled = true ↔ ∃ task, CheckedLate events task := by
  obtain ⟨hcounted, hperm, -⟩ := h.counted_eq hall
  rw [h.tally_adds.cancelled_eq]
  show (false || s.counted.any (·.ending.isCancelled)) = true ↔ _
  rw [Bool.false_or, List.any_eq_true]
  constructor
  · rintro ⟨result, hresult, hcancelled⟩
    rw [hcounted] at hresult
    obtain ⟨attempt, hattempt, rfl⟩ := List.mem_map.mp hresult
    refine ⟨attempt.task, h.checkedLate_iff.mpr ⟨attempt, hperm.mem_iff.mp hattempt, rfl, ?_⟩⟩
    exact ending_eq_cancelled_iff.mp (Ending.isCancelled_iff.mp hcancelled)
  · rintro ⟨task, hlate⟩
    obtain ⟨attempt, hattempt, -, hnone⟩ := h.checkedLate_iff.mp hlate
    refine ⟨attempt.result, ?_, ?_⟩
    · rw [hcounted]
      exact List.mem_map_of_mem (hperm.mem_iff.mpr hattempt)
    · rw [ending_eq_cancelled_iff.mpr hnone]
      rfl

/-! ## Exactly one result for each task -/

/-- What holds of every state that a run comes to, whatever the order of its steps. -/
structure DeliversOnce (j : Job) (scan : Scanner.Outcome) (events : List Event) (s : State) :
    Prop where
  /-- Tasks are told apart by their keys. -/
  distinct : ((tasksOf scan.found).map Task.key).Nodup
  /-- Each task is queued, held, waiting as a result, or received, and only one of these. -/
  partition : (s.queued.map Task.key ++ s.held.map Task.key ++ s.waiting.map Result.key ++
    s.consumed.map Result.key).Perm ((tasksOf scan.found).map Task.key)
  /-- No worker has stopped while a task is queued. -/
  queued_of_stopped : Worker.stopped ∈ s.workers → s.queued = []
  /-- While results are missing, one is waiting or a worker can take a step. -/
  waiting_or_step : s.consumed.length < scan.found.length →
    s.waiting ≠ [] ∨ ∃ event s', Step j scan.found.length s event s' ∧ event.worker?.isSome = true
  /-- The result of a task that is checked late is a cancellation. -/
  cancelled_of_late : ∀ result ∈ s.consumed ++ s.waiting, ∀ task, CheckedLate events task →
    result.key = task.key → result.ending = .cancelled
  /-- A challenge comes from the result of a task that is not checked late. -/
  challenge_of_early : ∀ c ∈ s.tally.challenges, ∃ result ∈ s.counted,
    c ∈ result.ending.challenges ∧ ∀ task, CheckedLate events task → result.key ≠ task.key
  /-- The report tells of a cancellation exactly if some task is checked late. -/
  cancelled_iff : s.counted.length = scan.found.length →
    ((finish j.registry s.tally).1.cancelled = true ↔ ∃ task, CheckedLate events task)

/-- **Every task gives exactly one result**, whatever the order of the steps and whenever the run is
cancelled. -/
theorem run_delivers_once (h : Run j scan wanted events s) : DeliversOnce j scan events s where
  distinct := nodup_keys_tasksOf scan.found
  partition := h.partition
  queued_of_stopped := h.ordered.queued_of_stopped
  waiting_or_step := h.waiting_or_step
  cancelled_of_late := fun _ hresult _ hlate hkey => h.cancelled_of_checkedLate hlate hresult hkey
  challenge_of_early := by
    intro c hc
    rw [h.tally_adds.challenges_eq] at hc
    obtain ⟨result, hresult, hc⟩ := List.mem_flatMap.mp hc
    refine ⟨result, hresult, hc, fun task hlate hkey => ?_⟩
    have hdelivered : result ∈ s.consumed ++ s.waiting :=
      List.mem_append_left _ (List.mem_append_left _ hresult)
    rw [h.cancelled_of_checkedLate hlate hdelivered hkey] at hc
    cases hc
  cancelled_iff := h.cancelled_iff

/-- A scan that chose two files. -/
def sampleScan : Scanner.Outcome where
  found := [("a.sample", sampleLanguage), ("b.sample", sampleLanguage)]
  stats := { seen := 2, yielded := 2 }
  messages := []
  gitCalls := []

/-- Two workers take a task each; the run is cancelled after the second has checked the flag and
before the first does, whose result is counted first. -/
theorem sample_cancelled_run (j : Job) :
    ∃ events s, Run j sampleScan 2 events s ∧ s.counted.length = 2 ∧
      CheckedLate events ⟨0, "a.sample", sampleLanguage⟩ := by
  let first : Task := ⟨0, "a.sample", sampleLanguage⟩
  let second : Task := ⟨1, "b.sample", sampleLanguage⟩
  have h₀ : Run j sampleScan 2 [] _ := .start
  have h₁ := h₀.step (show Step j 2 _ (.taken 0 first) _ from .take rfl rfl)
  have h₂ := h₁.step (show Step j 2 _ (.taken 1 second) _ from .take rfl rfl)
  have h₃ := h₂.step (show Step j 2 _ (.checked 1 (j.attempt false second)) _ from .check rfl)
  have h₄ := h₃.step (show Step j 2 _ .flagSet _ from .setFlag)
  have h₅ := h₄.step (show Step j 2 _ (.checked 0 (j.attempt true first)) _ from .check rfl)
  have h₆ := h₅.step (show Step j 2 _ (.delivered 0 (j.attempt true first)) _ from .deliver rfl)
  have h₇ := h₆.step (show Step j 2 _ (.delivered 1 (j.attempt false second)) _ from .deliver rfl)
  have h₈ := h₇.step (show Step j 2 _ (.received _) _ from .receive rfl rfl Nat.zero_lt_two)
  have h₉ := h₈.step (show Step j 2 _ (.counted _) _ from .count rfl)
  have h₁₀ := h₉.step (show Step j 2 _ (.received _) _ from .receive rfl rfl Nat.one_lt_two)
  have h₁₁ := h₁₀.step (show Step j 2 _ (.counted _) _ from .count rfl)
  exact ⟨_, _, h₁₁, rfl,
    [.taken 0 first, .taken 1 second, .checked 1 (j.attempt false second), .flagSet], 0,
    j.attempt true first, _, rfl, rfl, rfl⟩

/-- Every task of this run gives exactly one result, and one of the two is cancelled. -/
theorem run_delivers_once_sample :
    ∃ events s, Run (sampleSurroundings.job (sampleScanner [])) sampleScan 2 events s ∧
      s.counted.length = 2 ∧ CheckedLate events ⟨0, "a.sample", sampleLanguage⟩ ∧
      DeliversOnce (sampleSurroundings.job (sampleScanner [])) sampleScan events s := by
  obtain ⟨events, s, hrun, hall, hlate⟩ :=
    sample_cancelled_run (sampleSurroundings.job (sampleScanner []))
  exact ⟨events, s, hrun, hall, hlate, run_delivers_once hrun⟩

/-! ## The end of a run -/

/-- One for an event that brings a run nearer to its end. -/
def Event.moves : Event → Nat
  | .flagSet => 0
  | _ => 1

/-- The number of steps, other than the setting of the flag, until all results are counted and all
workers have stopped. -/
def State.remaining (s : State) : Nat :=
  5 * s.queued.length + 4 * s.holding.length + 3 * s.working.length + 2 * s.waiting.length +
    s.received.toList.length + s.queue.countP Option.isNone

/-- What a worker turns into shows in the numbers of tasks and of attempts that workers have. -/
theorem length_set_worker {w : Nat} {before : Worker} (h : s.workers[w]? = some before)
    (after : Worker) :
    (before.holding?.toList.length + ((s.workers.set w after).filterMap Worker.holding?).length =
        after.holding?.toList.length + s.holding.length) ∧
      before.working?.toList.length + ((s.workers.set w after).filterMap Worker.working?).length =
        after.working?.toList.length + s.working.length := by
  have hholding := (filterMap_set_perm Worker.holding? h after).length_eq
  have hworking := (filterMap_set_perm Worker.working? h after).length_eq
  rw [List.length_append, List.length_append] at hholding hworking
  exact ⟨hholding, hworking⟩

/-- Every step but the setting of the flag brings a run nearer to its end. -/
theorem Step.remaining_eq {total : Nat} {s' : State} {event : Event}
    (step : Step j total s event s') : s'.remaining + event.moves = s.remaining := by
  cases step with
  | setFlag => rfl
  | @take task queue w hqueue hidle =>
      obtain ⟨hholding, hworking⟩ := length_set_worker hidle (.holding task)
      have hqueued : s.queued.length = (queue.filterMap id).length + 1 := by
        rw [State.queued, hqueue]
        rfl
      have hsentinels : s.queue.countP Option.isNone = queue.countP Option.isNone := by
        rw [hqueue]
        rfl
      show 5 * (queue.filterMap id).length + 4 * (List.filterMap _ _).length +
        3 * (List.filterMap _ _).length + 2 * s.waiting.length + s.received.toList.length +
        queue.countP Option.isNone + 1 = _
      simp only [State.remaining, Worker.holding?, Worker.working?, Option.toList_none,
        Option.toList_some, List.length_nil, List.length_singleton] at hholding hworking ⊢
      omega
  | @stop queue w hqueue hidle =>
      obtain ⟨hholding, hworking⟩ := length_set_worker hidle .stopped
      have hqueued : s.queued.length = (queue.filterMap id).length := by
        rw [State.queued, hqueue]
        rfl
      have hsentinels : s.queue.countP Option.isNone = queue.countP Option.isNone + 1 := by
        rw [hqueue, List.countP_cons_of_pos rfl]
      show 5 * (queue.filterMap id).length + 4 * (List.filterMap _ _).length +
        3 * (List.filterMap _ _).length + 2 * s.waiting.length + s.received.toList.length +
        queue.countP Option.isNone + 1 = _
      simp only [State.remaining, Worker.holding?, Worker.working?, Option.toList_none,
        List.length_nil] at hholding hworking ⊢
      omega
  | @check task w hheld =>
      obtain ⟨hholding, hworking⟩ := length_set_worker hheld (.working (j.attempt s.flag task))
      show 5 * s.queued.length + 4 * (List.filterMap _ _).length +
        3 * (List.filterMap _ _).length + 2 * s.waiting.length + s.received.toList.length +
        s.queue.countP Option.isNone + 1 = _
      simp only [State.remaining, Worker.holding?, Worker.working?, Option.toList_none,
        Option.toList_some, List.length_nil, List.length_singleton] at hholding hworking ⊢
      omega
  | @deliver attempt w hat =>
      obtain ⟨hholding, hworking⟩ := length_set_worker hat .idle
      show 5 * s.queued.length + 4 * (List.filterMap _ _).length +
        3 * (List.filterMap _ _).length + 2 * (s.waiting ++ [attempt.result]).length +
        s.received.toList.length + s.queue.countP Option.isNone + 1 = _
      simp only [State.remaining, Worker.holding?, Worker.working?, Option.toList_none,
        Option.toList_some, List.length_nil, List.length_singleton, List.length_append]
        at hholding hworking ⊢
      omega
  | @receive result waiting hwaiting hnone _ =>
      show 5 * s.queued.length + 4 * s.holding.length + 3 * s.working.length +
        2 * waiting.length + 1 + s.queue.countP Option.isNone + 1 = _
      rw [State.remaining, hwaiting, hnone, List.length_cons, Option.toList_none, List.length_nil]
      omega
  | @count result hreceived =>
      show 5 * s.queued.length + 4 * s.holding.length + 3 * s.working.length +
        2 * s.waiting.length + 0 + s.queue.countP Option.isNone + 1 = _
      rw [State.remaining, hreceived, Option.toList_some, List.length_singleton]
      omega

/-- When all workers have stopped, no task is left to them and no sentinel. -/
theorem Run.remaining_of_stopped (h : Run j scan wanted events s)
    (hstopped : ∀ worker ∈ s.workers, worker = .stopped) :
    s.remaining = 2 * s.waiting.length + s.received.toList.length ∧
      s.consumed.length + s.waiting.length = scan.found.length := by
  have hqueued : s.queued = [] := by
    refine h.ordered.queued_of_stopped ?_
    have hmem := List.getElem_mem h.workers_pos
    rwa [hstopped _ hmem] at hmem
  have hsentinels := h.ordered.sentinels_eq
  have hcount : s.workers.countP Worker.isStopped = s.workers.length :=
    List.countP_eq_length.mpr fun worker hworker =>
      Worker.isStopped_iff.mpr (hstopped worker hworker)
  have hheld : s.held = [] := List.filterMap_eq_nil_iff.mpr fun worker hworker => by
    rw [hstopped worker hworker]
    rfl
  have hheld' := (held_perm s).length_eq
  rw [hheld, List.length_append, List.length_map, List.length_nil] at hheld'
  have hlength := h.partition.length_eq
  simp only [List.length_append, List.length_map, hqueued, hheld, List.length_nil,
    length_tasksOf] at hlength
  constructor
  · rw [State.remaining, hqueued, List.length_nil]
    omega
  · omega

/-- A run that is not at its end can go on without anyone cancelling it. -/
theorem Run.exists_step (h : Run j scan wanted events s) (hmore : s.remaining ≠ 0) :
    ∃ event s', Step j scan.found.length s event s' ∧ event.moves = 1 := by
  by_cases hlive : ∃ worker ∈ s.workers, worker.isStopped = false
  · obtain ⟨worker, hworker, hlive⟩ := hlive
    obtain ⟨w, hw⟩ := List.getElem?_of_mem hworker
    obtain ⟨event, s', hstep, hevent⟩ := h.worker_steps hw hlive
    refine ⟨event, s', hstep, ?_⟩
    cases event with
    | flagSet => cases hevent
    | _ => rfl
  · have hstopped : ∀ worker ∈ s.workers, worker = .stopped := by
      intro worker hworker
      refine Worker.isStopped_iff.mp ?_
      by_contra hnot
      exact hlive ⟨worker, hworker, Bool.eq_false_iff.mpr hnot⟩
    obtain ⟨hremaining, hresults⟩ := h.remaining_of_stopped hstopped
    rw [State.consumed, List.length_append] at hresults
    cases hreceived : s.received with
    | some result => exact ⟨_, _, .count hreceived, rfl⟩
    | none =>
        rw [hreceived, Option.toList_none, List.length_nil] at hremaining hresults
        cases hwaiting : s.waiting with
        | nil =>
            rw [hwaiting, List.length_nil] at hremaining
            exact absurd hremaining hmore
        | cons result waiting =>
            rw [hwaiting, List.length_cons] at hresults
            exact ⟨_, _, .receive hwaiting hreceived (by omega), rfl⟩

/-- At its end a run has counted all results, and its workers have stopped. -/
theorem Run.ended (h : Run j scan wanted events s) (hend : s.remaining = 0) :
    s.counted.length = scan.found.length ∧ ∀ worker ∈ s.workers, worker = .stopped := by
  rw [State.remaining] at hend
  have hsentinels := h.ordered.sentinels_eq
  have hstopped : ∀ worker ∈ s.workers, worker = .stopped := by
    intro worker hworker
    refine Worker.isStopped_iff.mp (List.countP_eq_length.mp ?_ worker hworker)
    omega
  obtain ⟨hremaining, hresults⟩ := h.remaining_of_stopped hstopped
  rw [State.consumed, List.length_append] at hresults
  exact ⟨by omega, hstopped⟩

/-- **No run goes on for ever**: what it has done and what remains are five steps for each task and
one for each worker, if the setting of the flag is not counted. -/
theorem Run.moves_eq (h : Run j scan wanted events s) :
    (events.map Event.moves).sum + s.remaining =
      5 * scan.found.length + (startedWorkers wanted scan.found.length).toNat := by
  induction h with
  | start =>
      simp [State.remaining, State.start, State.queued, State.holding, State.working,
        List.filterMap_replicate, List.filterMap_map, Worker.holding?, Worker.working?,
        List.countP_replicate, List.countP_map, Function.comp_def, length_tasksOf]
  | step _ hstep ih =>
      have hbalance := hstep.remaining_eq
      rw [List.map_append, List.sum_append, List.map_singleton, List.sum_singleton]
      omega

/-- **Every run can be completed** by what remains of it, without anyone cancelling it. -/
theorem Run.exists_complete (h : Run j scan wanted events s) :
    ∃ more s', Run j scan wanted (events ++ more) s' ∧ more.length = s.remaining ∧
      s'.counted.length = scan.found.length ∧ ∀ worker ∈ s'.workers, worker = .stopped := by
  induction hremaining : s.remaining generalizing events s with
  | zero => exact ⟨[], s, by rwa [List.append_nil], rfl, h.ended hremaining⟩
  | succ remaining ih =>
      obtain ⟨event, s₁, hstep, hmoves⟩ := h.exists_step (by omega)
      have hbalance := hstep.remaining_eq
      obtain ⟨more, s', hrun, hlength, hall⟩ := ih (h.step hstep) (by omega)
      refine ⟨event :: more, s', ?_, by rw [List.length_cons, hlength], hall⟩
      rwa [List.append_assoc, List.singleton_append] at hrun

/-! ## Runs and schedules -/

/-- An attempt is that of its task, given up if the task is checked late. -/
theorem Run.begun_eq (h : Run j scan wanted events s) {cancelled : Task → Bool}
    (hcancelled : ∀ task, cancelled task = true ↔ CheckedLate events task) {attempt : Attempt}
    (hattempt : attempt ∈ begunIn events) :
    attempt = j.attempt (cancelled attempt.task) attempt.task := by
  obtain ⟨event, hevent, hbegun⟩ := List.mem_filterMap.mp hattempt
  cases event with
  | checked w attempt' =>
      cases hbegun
      obtain ⟨before, after, rfl⟩ := List.append_of_mem hevent
      have hchecked := h.checked_eq rfl
      suffices hflag : cancelled attempt.task = before.any Event.setsFlag by
        rw [hflag]
        exact hchecked
      rw [Bool.eq_iff_iff, hcancelled, h.checkedLate_iff]
      constructor
      · rintro ⟨attempt', hattempt', htask, hnone⟩
        rw [h.begun_unique hattempt' hattempt (congrArg Task.key htask), hchecked] at hnone
        exact outcome_attempt_eq_none_iff.mp hnone
      · intro hset
        refine ⟨attempt, hattempt, rfl, ?_⟩
        rw [hchecked]
        exact outcome_attempt_eq_none_iff.mpr hset
  | _ => cases hbegun

open Classical in
/-- **What the results of a run amount to** is what the results of a schedule amount to, which gives
up the tasks that are checked late. -/
theorem Run.exists_schedule (h : Run j scan wanted events s)
    (hall : s.counted.length = scan.found.length) :
    ∃ schedule : Schedule, (∀ task, schedule.cancelled task = true ↔ CheckedLate events task) ∧
      j.tally schedule scan = s.tally := by
  obtain ⟨hcounted, hdelivered, htasks⟩ := h.counted_eq hall
  let cancelled : Task → Bool := fun task => decide (CheckedLate events task)
  have hcancelled : ∀ task, cancelled task = true ↔ CheckedLate events task :=
    fun task => decide_eq_true_iff
  let attempts := (tasksOf scan.found).map fun task => j.attempt (cancelled task) task
  have hattempts : (deliveredIn events).Perm attempts := by
    have hbegun : begunIn events =
        ((begunIn events).map Attempt.task).map fun task => j.attempt (cancelled task) task := by
      rw [List.map_map]
      refine (List.map_id _).symm.trans (List.map_congr_left fun attempt hattempt => ?_)
      exact h.begun_eq hcancelled hattempt
    rw [hbegun] at hdelivered
    exact hdelivered.trans (htasks.map _)
  let schedule : Schedule := {
    cancelled
    arrival := fun given => if given = attempts then deliveredIn events else given
    arrival_perm := by
      intro given
      split
      · rename_i heq
        rw [heq]
        exact hattempts
      · exact .refl given }
  refine ⟨schedule, hcancelled, ?_⟩
  have harrived : j.attempts schedule (tasksOf scan.found) = deliveredIn events := if_pos rfl
  rw [Job.tally, harrived, ← hcounted, h.tally_eq]

/-- A complete run in which nothing was fatal is a run that returns, with the report and the
challenges of its tally. -/
theorem Run.exists_harvest {e : Surroundings} {root : String} {o : Options} {scanner : Scanner}
    (hready : Ready e root o scanner scan) (h : Run (e.job scanner) scan wanted events s)
    (hall : s.counted.length = scan.found.length) (hfatal : s.tally.fatal = none)
    (log : List Log.Message) :
    ∃ schedule harvest log', (∀ task, schedule.cancelled task = true ↔ CheckedLate events task) ∧
      (extractWith e root o schedule).run log = (.ok harvest, log') ∧
      (harvest.report, harvest.challenges) = finish e.registry s.tally := by
  obtain ⟨schedule, hcancelled, htally⟩ := h.exists_schedule hall
  obtain ⟨log', hrun⟩ : ∃ log', (extractWith e root o schedule).run log =
      (.ok ((e.job scanner).harvest schedule scan), log') :=
    extractWith_eq_ok_iff.mpr ⟨scanner, scan, hready, by rw [htally, hfatal], rfl⟩
  refine ⟨schedule, _, log', hcancelled, hrun, ?_⟩
  rw [← htally]
  rfl

end Workers

end CodeChallenges.Extraction

import CodeChallenges.Extraction.Workers
import CodeChallenges.Proofs.Extraction.Tally
/-!
# Every task gives one result, in whatever order the workers step

What a run has done is read off its events: the attempts that were begun, those that were delivered,
and the flag as it was at each check.  Every step keeps three balances: the tasks are those that
wait, those that a worker holds, and those that were attempted (`Run.tasks_perm`); the attempts are
those that a worker is at and those that were delivered (`Run.attempts_perm`); and the results are
received in the order in which they were delivered (`Run.results_eq`).  So every task is in one
place at any time (`Run.partition`).
-/

namespace CodeChallenges.Extraction

open Repository (Scanner)

/-- What a task and its result have in common. -/
def Task.key (task : Task) : Nat × String :=
  (task.index, task.path)

/-- What a task and its result have in common. -/
def Result.key (result : Result) : Nat × String :=
  (result.index, result.path)

/-- No two tasks of a run have the same key. -/
theorem nodup_keys_tasksOf (found : List (String × Language)) :
    ((tasksOf found).map Task.key).Nodup := by
  have hindices : ((tasksOf found).map Task.key).map Prod.fst = List.range' 0 found.length := by
    rw [List.map_map, tasksOf, List.map_map, ← List.zipIdx_map_snd 0 found]
    rfl
  exact List.Nodup.of_map Prod.fst (hindices ▸ List.nodup_range')

namespace Workers

/-! ## What was done so far -/

/-- The attempt that an event begins. -/
def Event.begun? : Event → Option Attempt
  | .checked _ attempt => some attempt
  | _ => none

/-- The attempt whose result an event delivers. -/
def Event.delivered? : Event → Option Attempt
  | .delivered _ attempt => some attempt
  | _ => none

/-- The attempts that were begun. -/
def begunIn (events : List Event) : List Attempt :=
  events.filterMap Event.begun?

/-- The attempts whose results were delivered. -/
def deliveredIn (events : List Event) : List Attempt :=
  events.filterMap Event.delivered?

/-- The task of a worker that has not checked the flag for it. -/
def Worker.holding? : Worker → Option Task
  | .holding task => some task
  | _ => none

/-- The attempt that a worker is at. -/
def Worker.working? : Worker → Option Attempt
  | .working attempt => some attempt
  | _ => none

/-- Whether a worker has stopped. -/
def Worker.isStopped : Worker → Bool
  | .stopped => true
  | _ => false

theorem Worker.isStopped_iff {worker : Worker} : worker.isStopped = true ↔ worker = .stopped := by
  cases worker with
  | stopped => exact iff_of_true rfl rfl
  | idle | holding task | working attempt =>
      exact iff_of_false Bool.false_ne_true (fun h => by cases h)

/-- The tasks whose check is still to come, in the hands of workers. -/
def State.holding (s : State) : List Task :=
  s.workers.filterMap Worker.holding?

/-- The attempts that workers are at. -/
def State.working (s : State) : List Attempt :=
  s.workers.filterMap Worker.working?

/-! ## What one step does -/

section Step

variable {j : Job} {total : Nat} {s s' : State} {event : Event}

/-- When a worker changes, what is read off all workers changes by what is read off this one. -/
theorem filterMap_set_perm {α : Type} (read : Worker → Option α) {workers : List Worker} {w : Nat}
    {before : Worker} (h : workers[w]? = some before) (after : Worker) :
    ((read before).toList ++ (workers.set w after).filterMap read).Perm
      ((read after).toList ++ workers.filterMap read) := by
  obtain ⟨hw, rfl⟩ := List.getElem?_eq_some_iff.mp h
  have hset : ((workers.set w after).filterMap read).Perm
      ((read after).toList ++ (workers.eraseIdx w).filterMap read) := by
    simpa only [List.filterMap_eq_flatMap_toList, List.flatMap_cons] using
      (List.set_perm_cons_eraseIdx hw after).filterMap read
  have hget : ((read workers[w]).toList ++ (workers.eraseIdx w).filterMap read).Perm
      (workers.filterMap read) := by
    simpa only [List.filterMap_eq_flatMap_toList, List.flatMap_cons] using
      (List.getElem_cons_eraseIdx_perm hw).filterMap read
  exact ((hset.append_left _).trans (List.perm_append_comm_assoc _ _ _)).trans (hget.append_left _)

theorem Step.flag_eq (step : Step j total s event s') : s'.flag = (s.flag || event.setsFlag) := by
  cases step with
  | setFlag => exact (Bool.or_true _).symm
  | take | stop | check | deliver | receive => exact (Bool.or_false _).symm
  | count => rfl

/-- An attempt that begins is that of its task under the flag as it is. -/
theorem Step.checked_eq {w : Nat} {attempt : Attempt}
    (step : Step j total s (.checked w attempt) s') : attempt = j.attempt s.flag attempt.task := by
  cases step with
  | check => rfl

/-- A task that is no longer queued or held without a check is the task of the attempt that
begins. -/
theorem Step.tasks_perm (step : Step j total s event s') :
    (s'.queued ++ s'.holding ++ event.begun?.toList.map Attempt.task).Perm
      (s.queued ++ s.holding) := by
  cases step with
  | setFlag | receive | count => exact .of_eq (List.append_nil _)
  | @take task queue w hqueue hidle =>
      have hholding := filterMap_set_perm Worker.holding? hidle (.holding task)
      have hqueued : s.queued = task :: queue.filterMap id := by
        rw [State.queued, hqueue]
        rfl
      rw [hqueued]
      show (queue.filterMap id ++ (s.workers.set w (.holding task)).filterMap Worker.holding? ++
        []).Perm _
      rw [List.append_nil]
      exact (hholding.append_left _).trans List.perm_middle
  | @stop queue w hqueue hidle =>
      have hholding := filterMap_set_perm Worker.holding? hidle .stopped
      have hqueued : s.queued = queue.filterMap id := by
        rw [State.queued, hqueue]
        rfl
      rw [hqueued]
      show (queue.filterMap id ++ (s.workers.set w .stopped).filterMap Worker.holding? ++ []).Perm _
      rw [List.append_nil]
      exact hholding.append_left _
  | @check task w hheld =>
      have hholding := filterMap_set_perm Worker.holding? hheld (.working (j.attempt s.flag task))
      show (s.queued ++ (s.workers.set w _).filterMap Worker.holding? ++ [task]).Perm _
      rw [List.append_assoc]
      exact ((List.perm_append_singleton _ _).trans hholding).append_left _
  | @deliver attempt w hworking =>
      have hholding := filterMap_set_perm Worker.holding? hworking .idle
      show (s.queued ++ (s.workers.set w .idle).filterMap Worker.holding? ++ []).Perm _
      rw [List.append_nil]
      exact hholding.append_left _

/-- An attempt that a worker is no longer at is delivered. -/
theorem Step.attempts_perm (step : Step j total s event s') :
    (s'.working ++ event.delivered?.toList).Perm (s.working ++ event.begun?.toList) := by
  cases step with
  | setFlag | receive | count => exact .refl _
  | @take task queue w hqueue hidle =>
      have hworking := filterMap_set_perm Worker.working? hidle (.holding task)
      exact hworking.append_right []
  | @stop queue w hqueue hidle =>
      have hworking := filterMap_set_perm Worker.working? hidle .stopped
      exact hworking.append_right []
  | @check task w hheld =>
      have hworking := filterMap_set_perm Worker.working? hheld (.working (j.attempt s.flag task))
      show ((s.workers.set w _).filterMap Worker.working? ++ []).Perm
        (s.working ++ [j.attempt s.flag task])
      rw [List.append_nil]
      exact hworking.trans (List.perm_append_singleton _ _).symm
  | @deliver attempt w hworking =>
      have hdone := filterMap_set_perm Worker.working? hworking .idle
      show ((s.workers.set w .idle).filterMap Worker.working? ++ [attempt]).Perm (s.working ++ [])
      rw [List.append_nil]
      exact (List.perm_append_singleton _ _).trans hdone

/-- Results keep their order from the delivery on. -/
theorem Step.results_eq (step : Step j total s event s') :
    s'.consumed ++ s'.waiting =
      s.consumed ++ s.waiting ++ event.delivered?.toList.map Attempt.result := by
  cases step with
  | setFlag | take | stop | check => exact (List.append_nil _).symm
  | deliver => exact (List.append_assoc _ _ _).symm
  | @receive result waiting hwaiting hnone _ =>
      simp [State.consumed, hwaiting, hnone, Event.delivered?]
  | @count result hreceived =>
      simp [State.consumed, hreceived, Event.delivered?]

/-- Only what is counted enters the tally. -/
theorem Step.counted_cases (step : Step j total s event s') :
    (s'.counted = s.counted ∧ s'.tally = s.tally) ∨
      ∃ result, s'.counted = s.counted ++ [result] ∧ s'.tally = s.tally.add result := by
  cases step with
  | setFlag | take | stop | check | deliver | receive => exact .inl ⟨rfl, rfl⟩
  | @count result hreceived => exact .inr ⟨result, rfl, rfl⟩

/-! ## The queue of tasks -/

/-- Tasks stand in the queue before all sentinels.  There is a sentinel for each worker that has not
stopped, and no worker stops before the last task is taken. -/
structure Ordered (s : State) : Prop where
  tasks_first : s.queue.Pairwise (fun a b => a = none → b = none)
  sentinels_eq : s.queue.countP Option.isNone + s.workers.countP Worker.isStopped = s.workers.length
  queued_of_stopped : Worker.stopped ∈ s.workers → s.queued = []

theorem countP_set_add {workers : List Worker} {w : Nat} {before : Worker}
    (h : workers[w]? = some before) (after : Worker) :
    (workers.set w after).countP Worker.isStopped + before.isStopped.toNat =
      workers.countP Worker.isStopped + after.isStopped.toNat := by
  obtain ⟨hw, rfl⟩ := List.getElem?_eq_some_iff.mp h
  have hset := (List.set_perm_cons_eraseIdx hw after).countP_eq Worker.isStopped
  have hget := (List.getElem_cons_eraseIdx_perm hw).countP_eq Worker.isStopped
  rw [List.countP_cons] at hset hget
  have hone : ∀ worker : Worker,
      (if worker.isStopped = true then 1 else 0) = worker.isStopped.toNat := by
    intro worker
    cases worker.isStopped <;> rfl
  rw [hone] at hset hget
  omega

/-- What a worker turns into, if it does not stop, leaves the order as it is. -/
theorem Ordered.set {w : Nat} {before after : Worker} (h : Ordered s)
    (hw : s.workers[w]? = some before) (hbefore : before.isStopped = false)
    (hafter : after.isStopped = false) {s' : State} (hqueue : s'.queue = s.queue)
    (hworkers : s'.workers = s.workers.set w after) : Ordered s' where
  tasks_first := hqueue ▸ h.tasks_first
  sentinels_eq := by
    have hcount := countP_set_add hw after
    have hsentinels := h.sentinels_eq
    rw [hbefore, hafter] at hcount
    rw [hqueue, hworkers, List.length_set]
    omega
  queued_of_stopped := by
    intro hstopped
    rw [hworkers] at hstopped
    rw [State.queued, hqueue]
    rcases List.mem_or_eq_of_mem_set hstopped with hin | heq
    · exact h.queued_of_stopped hin
    · rw [← heq] at hafter
      cases hafter

/-- Behind a sentinel there is no task. -/
theorem Ordered.queued_eq_nil {queue : List (Option Task)} (h : Ordered s)
    (hqueue : s.queue = none :: queue) : s.queued = [] := by
  have hfirst := h.tasks_first
  rw [hqueue] at hfirst
  rw [State.queued, hqueue, List.filterMap_eq_nil_iff]
  intro a ha
  rcases List.mem_cons.mp ha with rfl | ha
  · rfl
  · exact (List.pairwise_cons.mp hfirst).1 a ha rfl

theorem Step.ordered (step : Step j total s event s') (h : Ordered s) : Ordered s' := by
  cases step with
  | setFlag | receive | count => exact ⟨h.tasks_first, h.sentinels_eq, h.queued_of_stopped⟩
  | @take task queue w hqueue hidle =>
      have hfirst := h.tasks_first
      have hsentinels := h.sentinels_eq
      have hcount := countP_set_add hidle (.holding task)
      rw [hqueue] at hfirst hsentinels
      refine ⟨(List.pairwise_cons.mp hfirst).2, ?_, ?_⟩
      · rw [List.countP_cons_of_neg Bool.false_ne_true] at hsentinels
        simp only [Worker.isStopped, Bool.toNat_false] at hcount
        dsimp only
        rw [List.length_set]
        omega
      · intro hstopped
        rcases List.mem_or_eq_of_mem_set hstopped with hin | heq
        · have hnone := h.queued_of_stopped hin
          rw [State.queued, hqueue] at hnone
          cases hnone
        · cases heq
  | @stop queue w hqueue hidle =>
      have hfirst := h.tasks_first
      have hsentinels := h.sentinels_eq
      have hcount := countP_set_add hidle .stopped
      have hnone := h.queued_eq_nil hqueue
      rw [hqueue] at hfirst hsentinels
      refine ⟨(List.pairwise_cons.mp hfirst).2, ?_, ?_⟩
      · rw [List.countP_cons_of_pos rfl] at hsentinels
        simp only [Worker.isStopped, Bool.toNat_false, Bool.toNat_true] at hcount
        dsimp only
        rw [List.length_set]
        omega
      · intro _
        rw [State.queued, hqueue] at hnone
        exact hnone
  | check hheld => exact h.set hheld rfl rfl rfl rfl
  | deliver hworking => exact h.set hworking rfl rfl rfl rfl

theorem Step.length_workers (step : Step j total s event s') :
    s'.workers.length = s.workers.length := by
  cases step with
  | setFlag | receive | count => rfl
  | take | stop | check | deliver => exact List.length_set

end Step

/-! ## What a run has done -/

section Run

variable {j : Job} {scan : Scanner.Outcome} {wanted : Int} {events : List Event} {s : State}

theorem filterMap_append_singleton {α β : Type} (f : α → Option β) (items : List α) (last : α) :
    (items ++ [last]).filterMap f = items.filterMap f ++ (f last).toList := by
  rw [List.filterMap_eq_flatMap_toList, List.flatMap_append, List.flatMap_singleton,
    ← List.filterMap_eq_flatMap_toList]

theorem Run.flag_eq (h : Run j scan wanted events s) : s.flag = events.any Event.setsFlag := by
  induction h with
  | start => rfl
  | step _ hstep ih => rw [hstep.flag_eq, ih, List.any_append, List.any_cons, List.any_nil, Bool.or_false]

/-- Every attempt is that of its task under the flag as it was at the check. -/
theorem Run.checked_eq (h : Run j scan wanted events s) {before after : List Event} {w : Nat}
    {attempt : Attempt} (heq : events = before ++ .checked w attempt :: after) :
    attempt = j.attempt (before.any Event.setsFlag) attempt.task := by
  induction h generalizing after with
  | start => cases before <;> cases heq
  | @step events s s' event hrun hstep ih =>
      rcases List.eq_nil_or_concat after with rfl | ⟨after, last, rfl⟩
      · obtain ⟨rfl, hevent⟩ := List.append_inj' heq rfl
        cases hevent
        rw [← hrun.flag_eq]
        exact hstep.checked_eq
      · rw [List.concat_eq_append, ← List.cons_append, ← List.append_assoc] at heq
        exact ih (List.append_inj' heq rfl).1

/-- The tasks are those that are queued, those that are held without a check, and those that were
attempted. -/
theorem Run.tasks_perm (h : Run j scan wanted events s) :
    (s.queued ++ s.holding ++ (begunIn events).map Attempt.task).Perm (tasksOf scan.found) := by
  induction h with
  | start =>
      apply List.Perm.of_eq
      simp [State.queued, State.holding, State.start, begunIn, List.filterMap_replicate,
        Worker.holding?, List.filterMap_map]
  | @step events s s' event hrun hstep ih =>
      rw [begunIn, filterMap_append_singleton, List.map_append]
      calc List.Perm (s'.queued ++ s'.holding ++
            ((begunIn events).map Attempt.task ++ event.begun?.toList.map Attempt.task))
            (s'.queued ++ s'.holding ++ event.begun?.toList.map Attempt.task ++
              (begunIn events).map Attempt.task) := by
            rw [List.append_assoc _ (event.begun?.toList.map Attempt.task)]
            exact List.perm_append_comm.append_left _
        List.Perm _ (s.queued ++ s.holding ++ (begunIn events).map Attempt.task) :=
            hstep.tasks_perm.append_right _
        List.Perm _ (tasksOf scan.found) := ih

/-- The attempts are those that workers are at and those that were delivered. -/
theorem Run.attempts_perm (h : Run j scan wanted events s) :
    (s.working ++ deliveredIn events).Perm (begunIn events) := by
  induction h with
  | start =>
      apply List.Perm.of_eq
      simp [State.working, State.start, begunIn, deliveredIn, List.filterMap_replicate,
        Worker.working?]
  | @step events s s' event hrun hstep ih =>
      rw [begunIn, deliveredIn, filterMap_append_singleton, filterMap_append_singleton]
      calc List.Perm (s'.working ++ (deliveredIn events ++ event.delivered?.toList))
            (s'.working ++ event.delivered?.toList ++ deliveredIn events) := by
            rw [List.append_assoc]
            exact List.perm_append_comm.append_left _
        List.Perm _ (s.working ++ event.begun?.toList ++ deliveredIn events) :=
            hstep.attempts_perm.append_right _
        List.Perm _ (s.working ++ deliveredIn events ++ event.begun?.toList) := by
            rw [List.append_assoc, List.append_assoc]
            exact List.perm_append_comm.append_left _
        List.Perm _ (begunIn events ++ event.begun?.toList) := ih.append_right _

/-- The results are those that were delivered, in that order. -/
theorem Run.results_eq (h : Run j scan wanted events s) :
    s.consumed ++ s.waiting = (deliveredIn events).map Attempt.result := by
  induction h with
  | start => rfl
  | step _ hstep ih =>
      rw [hstep.results_eq, ih, deliveredIn, deliveredIn, filterMap_append_singleton,
        List.map_append]

/-- The tally holds what was counted. -/
theorem Run.tally_eq (h : Run j scan wanted events s) :
    s.tally = (startTally scan.stats).addAll s.counted := by
  induction h with
  | start => rfl
  | step _ hstep ih =>
      rcases hstep.counted_cases with ⟨hcounted, htally⟩ | ⟨result, hcounted, htally⟩
      · rw [hcounted, htally, ih]
      · rw [hcounted, htally, ih, Tally.addAll, Tally.addAll, List.foldl_append, List.foldl_cons,
          List.foldl_nil]

theorem Run.ordered (h : Run j scan wanted events s) : Ordered s := by
  induction h with
  | start =>
      constructor
      · refine List.pairwise_append.mpr ⟨?_, ?_, ?_⟩
        · refine List.pairwise_map.mpr (List.pairwise_of_forall fun _ _ hnone => ?_)
          cases hnone
        · exact List.pairwise_replicate.mpr (.inr fun hnone => hnone)
        · intro _ _ sentinel hsentinel _
          exact List.eq_of_mem_replicate hsentinel
      · simp [State.start, List.countP_replicate, Worker.isStopped, List.countP_map,
          Function.comp_def]
      · intro hstopped
        cases List.eq_of_mem_replicate hstopped
  | step _ hstep ih => exact hstep.ordered ih

/-- There is at least one worker. -/
theorem Run.workers_pos (h : Run j scan wanted events s) : 0 < s.workers.length := by
  induction h with
  | start =>
      simp only [State.start, List.length_replicate, startedWorkers]
      omega
  | step _ hstep ih => rwa [hstep.length_workers]

/-! ## Where each task is -/

theorem held_perm (s : State) : s.held.Perm (s.holding ++ s.working.map Attempt.task) := by
  rw [State.held, State.holding, State.working]
  induction s.workers with
  | nil => exact .refl _
  | cons worker workers ih =>
      cases worker with
      | idle => exact ih
      | holding task => exact ih.cons task
      | working attempt => exact (ih.cons attempt.task).trans List.perm_middle.symm
      | stopped => exact ih

/-- **The tasks are in one place each**: in the queue, with a worker, among the waiting results, or
among those received. -/
theorem Run.partition (h : Run j scan wanted events s) :
    (s.queued.map Task.key ++ s.held.map Task.key ++ s.waiting.map Result.key ++
      s.consumed.map Result.key).Perm ((tasksOf scan.found).map Task.key) := by
  have hresults : s.consumed.map Result.key ++ s.waiting.map Result.key =
      (deliveredIn events).map (fun attempt => attempt.task.key) := by
    rw [← List.map_append, h.results_eq, List.map_map]
    rfl
  have htasks := h.tasks_perm.map Task.key
  have hattempts := h.attempts_perm.map (fun attempt => attempt.task.key)
  have hheld := (held_perm s).map Task.key
  rw [List.map_append, List.map_append, List.map_map] at htasks
  rw [List.map_append] at hattempts
  rw [List.map_append, List.map_map] at hheld
  calc List.Perm (s.queued.map Task.key ++ s.held.map Task.key ++ s.waiting.map Result.key ++
          s.consumed.map Result.key)
        (s.queued.map Task.key ++ s.held.map Task.key ++
          (deliveredIn events).map (fun attempt => attempt.task.key)) := by
          rw [List.append_assoc, ← hresults]
          exact List.perm_append_comm.append_left _
    List.Perm _ (s.queued.map Task.key ++ (s.holding.map Task.key ++
          s.working.map (Task.key ∘ Attempt.task)) ++
          (deliveredIn events).map (fun attempt => attempt.task.key)) :=
          (hheld.append_left _).append_right _
    List.Perm _ (s.queued.map Task.key ++ s.holding.map Task.key ++
          (begunIn events).map (Task.key ∘ Attempt.task)) := by
          rw [← List.append_assoc, List.append_assoc _ (s.working.map _)]
          exact hattempts.append_left _
    List.Perm _ ((tasksOf scan.found).map Task.key) := htasks

end Run

end Workers

end CodeChallenges.Extraction

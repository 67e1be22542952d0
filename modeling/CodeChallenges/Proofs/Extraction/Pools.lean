import CodeChallenges.Extraction.Pools
import CodeChallenges.Proofs.Extraction.File
import CodeChallenges.Proofs.Extraction.Workers
import CodeChallenges.Proofs.Grammar.Pool
/-!
# Processing with pools

A file that is skipped before it is parsed meets no grammar, and neither does one whose language is
ready.  As long as the pool of a worker is sound, a file whose language is ready is processed with it
as without a pool (`Job.processIn_answers`), so that this holds of all calls that workers make, in
whatever order (`Calls.results`).
-/

namespace CodeChallenges.Extraction

open Repository (Scanner)
open Grammar (NamedApart Pool)

/-! ## One file -/

variable {o : Options} {scan : Scanner.Outcome} {j : Job} {task : Task}

/-- No failure of a grammar comes out of a tree. -/
theorem processTree_ne_grammar {r : Registry} {s : Candidates.Setting} {queries : Queries}
    {tree : Tree.Node} {failure : Grammar.Failure} :
    processTree r o s queries tree ≠ .error (.grammar failure) := by
  intro h
  have hcandidates : ∀ {α : Type} {x : Except Candidates.Fault α},
      x.mapError Fault.candidates ≠ .error (.grammar failure) := by
    intro α x hx
    obtain ⟨fault, -, hfault⟩ := mapError_eq_error_iff.mp hx
    cases hfault
  rcases bind_eq_error_iff.mp h with h | ⟨found, -, h⟩
  · exact hcandidates h
  rcases bind_eq_error_iff.mp h with h | ⟨structural, -, h⟩
  · exact hcandidates h
  rcases bind_eq_error_iff.mp h with h | ⟨further, -, h⟩
  · exact hcandidates h
  rcases bind_eq_error_iff.mp h with h | ⟨processed, -, h⟩
  · rw [challengesOf] at h
    split at h
    · cases h
    · rcases bind_eq_error_iff.mp h with h | ⟨made, -, h⟩
      · obtain ⟨fault, -, hfault⟩ := mapError_eq_error_iff.mp h
        cases hfault
      · cases h
  · cases h

/-- A file that comes to be parsed is processed as text. -/
theorem Job.process_of_parsed {content : List UInt8} (h : j.parsed? task = some content) :
    j.process task =
      processText j.toolkit j.registry j.scanner.options task.language task.path content := by
  obtain ⟨hread, hparsed⟩ := Option.filter_eq_some_iff.mp h
  rw [Job.process, processFile_eq_processContent hread]
  simp only [Bool.and_eq_true, decide_eq_true_eq] at hparsed
  obtain ⟨⟨hsize, hbinary⟩, hvalid⟩ := hparsed
  split at hbinary
  · rename_i binary hanswer
    rw [Bool.not_eq_true'] at hbinary
    rw [processContent, if_neg (Int.not_lt.mpr hsize), hanswer, hbinary]
    show (if (!Text.Utf8.isValid content) = true then _ else _) = _
    rw [hvalid]
    rfl
  · cases hbinary

/-- A file that does not come to be parsed meets no grammar. -/
theorem Job.process_of_not_parsed (h : j.parsed? task = none) (failure : Grammar.Failure) :
    j.process task ≠ .error (.grammar failure) := by
  intro hprocess
  rw [Job.process] at hprocess
  cases hread : j.scanner.world.snapshot.read? j.scanner.root task.path with
  | none =>
      rw [processFile_of_unread hread] at hprocess
      split at hprocess <;> cases hprocess
  | some content =>
      rw [parsed?, Extraction.parsed?, hread, Option.filter_eq_none_iff] at h
      have hnot := h content rfl
      rw [processFile_eq_processContent hread, processContent] at hprocess
      split at hprocess
      · cases hprocess
      rename_i hsize
      rcases bind_eq_error_iff.mp hprocess with hgit | ⟨binary, hbinary, hprocess⟩
      · obtain ⟨fault, -, hfault⟩ := mapError_eq_error_iff.mp hgit
        cases hfault
      split at hprocess
      · cases hprocess
      rename_i htext
      split at hprocess
      · cases hprocess
      rename_i hvalid
      rw [Int.not_lt] at hsize
      rw [Bool.not_eq_true] at htext
      refine hnot ?_
      rw [mapError_eq_ok_iff.mp hbinary, htext, decide_eq_true hsize]
      rwa [Bool.not_eq_true, Bool.not_eq_false'] at hvalid

/-- **With a sound pool** a file whose language is ready is processed as without one. -/
theorem Job.processIn_answers {languages : List Language} (hnames : NamedApart languages)
    (hl : task.language ∈ languages) {patterns : Grammar.Patterns}
    (hready : Grammar.prepare j.toolkit.grammars task.language = .ok patterns) (worker : Nat) :
    Grammar.Pooled.Answers (Pool.Sound j.toolkit.grammars languages worker)
      (j.processIn worker task) id (.ok (j.process task)) := by
  rw [processIn]
  cases hparsed : j.parsed? task with
  | none => exact Grammar.Pooled.answers_pure (j.process task) id
  | some content =>
      have hpool := @Pool.parse_queries_answers j.toolkit.grammars languages worker hnames
        task.language hl (String.ofList (Text.Utf8.decodeLossy content))
      rw [hready] at hpool
      rw [process_of_parsed hparsed, processText, hready]
      show Grammar.Pooled.Answers _ (processTextIn _ _ _ _ _ _ _) id
        (Except.ok patterns >>= fun patterns => .ok (processTree j.registry j.scanner.options
          (Candidates.Setting.ofFile task.language task.path content) (patterns.queries content)
          (j.toolkit.parse task.language content)))
      rw [processTextIn, ← bind_assoc]
      refine hpool.bind fun made _ => ?_
      exact Grammar.Pooled.answers_pure _ id

/-- A language that is ready keeps failures of grammars away from its files. -/
theorem Job.process_ne_grammar {patterns : Grammar.Patterns}
    (hready : Grammar.prepare j.toolkit.grammars task.language = .ok patterns)
    (failure : Grammar.Failure) : j.process task ≠ .error (.grammar failure) := by
  cases hparsed : j.parsed? task with
  | none => exact process_of_not_parsed hparsed failure
  | some content =>
      rw [process_of_parsed hparsed, processText, hready]
      exact processTree_ne_grammar

/-! ## The calls of workers -/

/-- **Calls of workers** on files whose languages are ready come out as without pools, and leave
sound pools behind. -/
theorem Calls.results {languages : List Language} (hnames : NamedApart languages)
    {tasks : List Task} (htasks : ∀ task ∈ tasks, task.language ∈ languages ∧
      ∃ patterns, Grammar.prepare j.toolkit.grammars task.language = .ok patterns)
    {calls : List Call} {pools : Nat → Pool} (h : Calls j tasks calls pools) :
    (∀ worker, (pools worker).Sound j.toolkit.grammars languages worker) ∧
      ∀ c ∈ calls, c.task ∈ tasks ∧ c.result = .ok (j.process c.task) := by
  induction h with
  | start => exact ⟨fun worker => Pool.sound_new, List.forall_mem_nil _⟩
  | more worker _ htask hrun ih =>
      obtain ⟨hsound, hcalls⟩ := ih
      obtain ⟨hl, patterns, hready⟩ := htasks _ htask
      obtain ⟨result, session, pool, hanswer, hkeeps, hresult⟩ :=
        Job.processIn_answers hnames hl hready worker _ _ (hsound worker)
      rw [hrun] at hanswer
      cases hanswer
      constructor
      · intro other
        dsimp only
        by_cases hother : other = worker
        · rw [if_pos hother, hother]
          exact hkeeps
        · rw [if_neg hother]
          exact hsound other
      · intro c hc
        rcases List.mem_append.mp hc with hc | hc
        · exact hcalls c hc
        · rw [List.mem_singleton.mp hc]
          refine ⟨htask, ?_⟩
          obtain ⟨outcome, houtcome, hsame⟩ := map_eq_ok_iff.mp hresult
          rw [houtcome]
          exact congrArg Except.ok hsame

/-- The worker and the task of a step that processes a file. -/
def Workers.Event.processed? : Workers.Event → Option (Nat × Task)
  | .checked worker ⟨task, some _⟩ => some (worker, task)
  | _ => none

/-- Whatever order the steps of the workers come in, what they process they can process in calls. -/
theorem Workers.Run.exists_calls {wanted : Int} {events : List Workers.Event} {s : Workers.State}
    (h : Workers.Run j scan wanted events s) : ∃ calls pools,
      Calls j (tasksOf scan.found) calls pools ∧
        calls.map (fun c => (c.worker, c.task)) = events.filterMap Workers.Event.processed? := by
  induction h with
  | start => exact ⟨[], _, .start, rfl⟩
  | @step events s s' event hrun hstep ih =>
      obtain ⟨calls, pools, hcalls, hmap⟩ := ih
      rw [Workers.filterMap_append_singleton, ← hmap]
      match event with
      | .checked worker ⟨task, some outcome⟩ =>
          have htask : task ∈ tasksOf scan.found := by
            refine (hrun.step hstep).tasks_perm.mem_iff.mp (List.mem_append_right _ ?_)
            rw [Workers.begunIn, Workers.filterMap_append_singleton, List.map_append]
            exact List.mem_append_right _ List.mem_cons_self
          obtain ⟨⟨result, session, pool⟩, hprocess⟩ :
              ∃ ended, (j.processIn worker task).run ({}, pools worker) = ended := ⟨_, rfl⟩
          refine ⟨_, _, hcalls.more worker htask hprocess, ?_⟩
          rw [List.map_append]
          rfl
      | .checked worker ⟨task, none⟩ => exact ⟨calls, pools, hcalls, (List.append_nil _).symm⟩
      | .flagSet | .taken _ _ | .stopped _ | .delivered _ _ | .received _ | .counted _ =>
          exact ⟨calls, pools, hcalls, (List.append_nil _).symm⟩

end CodeChallenges.Extraction

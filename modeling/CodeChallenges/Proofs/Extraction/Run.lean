import CodeChallenges.Extraction.Run
import CodeChallenges.Proofs.Extraction.File
/-!
# Runs that return

A run first checks the languages, opens the root and lists the files, and it comes to its tasks if
all this succeeds (`Ready`).  It returns if moreover nothing fatal arrives, and then it returns what
its results amount to (`extractWith_eq_ok_iff`).
-/

namespace CodeChallenges.Extraction

open Repository (Scanner World)

/-! ## Steps of a run -/

namespace Running

variable {α β ε : Type}

/-- A step after another one goes on with its value and its messages, or fails as it fails. -/
theorem run_bind (x : Running α) (f : α → Running β) (log : List Log.Message) :
    (x >>= f).run log =
      match x.run log with
      | (.ok a, log') => (f a).run log'
      | (.error fault, log') => (.error fault, log') := by
  rw [run_bind_state]
  rcases x.run log with ⟨_ | _, _⟩ <;> rfl

theorem run_bind_of_ok {x : Running α} {f : α → Running β} {a : α} {log log' : List Log.Message}
    (h : x.run log = (.ok a, log')) : (x >>= f).run log = (f a).run log' := by
  rw [run_bind, h]

theorem run_bind_eq_ok_iff {x : Running α} {f : α → Running β} {b : β}
    {log log'' : List Log.Message} :
    (x >>= f).run log = (.ok b, log'') ↔
      ∃ a log', x.run log = (.ok a, log') ∧ (f a).run log' = (.ok b, log'') := by
  constructor
  · intro h
    rw [run_bind] at h
    rcases hx : x.run log with ⟨fault | a, log'⟩
    · rw [hx] at h
      cases h
    · rw [hx] at h
      exact ⟨a, log', rfl, h⟩
  · rintro ⟨a, log', hx, h⟩
    rw [run_bind_of_ok hx, h]

theorem run_pure_eq_ok_iff {a b : α} {log log' : List Log.Message} :
    (pure a : Running α).run log = (.ok b, log') ↔ a = b ∧ log = log' := by
  show ((.ok a, log) : Except RunFault α × List Log.Message) = _ ↔ _
  rw [Prod.mk.injEq, Except.ok.injEq]

theorem run_say_eq_ok_iff {messages log log' : List Log.Message} :
    (say messages).run log = (.ok (), log') ↔ log ++ messages = log' := by
  show ((.ok (), log ++ messages) : Except RunFault Unit × List Log.Message) = _ ↔ _
  rw [Prod.mk.injEq]
  exact and_iff_right rfl

theorem run_orFail_eq_ok_iff {wrap : ε → RunFault} {x : Except ε α} {a : α}
    {log log' : List Log.Message} :
    (orFail wrap x).run log = (.ok a, log') ↔ x = .ok a ∧ log = log' := by
  cases x with
  | ok b =>
      rw [Except.ok.injEq]
      exact run_pure_eq_ok_iff
  | error e =>
      constructor
      · intro h
        cases h
      · rintro ⟨h, -⟩
        cases h

theorem run_validate_eq_ok_iff {t : Toolkit} {languages : List Language}
    {log log' : List Log.Message} :
    (validate t languages).run log = (.ok (), log') ↔
      (Grammar.validate t.grammars languages).1 = .ok () ∧
        log ++ (Grammar.validate t.grammars languages).2 = log' := by
  unfold validate
  obtain ⟨result, messages⟩ := Grammar.validate t.grammars languages
  rw [run_bind_eq_ok_iff]
  constructor
  · rintro ⟨_, _, hsay, hresult⟩
    obtain ⟨rfl, rfl⟩ := run_orFail_eq_ok_iff.mp hresult
    exact ⟨rfl, run_say_eq_ok_iff.mp hsay⟩
  · rintro ⟨hresult, hlog⟩
    exact ⟨(), log', run_say_eq_ok_iff.mpr hlog, run_orFail_eq_ok_iff.mpr ⟨hresult, rfl⟩⟩

theorem run_bind_of_error {x : Running α} {f : α → Running β} {fault : RunFault}
    {log log' : List Log.Message} (h : x.run log = (.error fault, log')) :
    (x >>= f).run log = (.error fault, log') := by
  rw [run_bind, h]

theorem run_bind_eq_error_iff {x : Running α} {f : α → Running β} {fault : RunFault}
    {log log'' : List Log.Message} :
    (x >>= f).run log = (.error fault, log'') ↔
      x.run log = (.error fault, log'') ∨
        ∃ a log', x.run log = (.ok a, log') ∧ (f a).run log' = (.error fault, log'') := by
  rw [run_bind]
  rcases hx : x.run log with ⟨fault' | a, log'⟩
  · constructor
    · intro h
      cases h
      exact .inl rfl
    · rintro (h | ⟨a, log', h, -⟩)
      · cases h
        rfl
      · cases h
  · constructor
    · intro h
      exact .inr ⟨a, log', rfl, h⟩
    · rintro (h | ⟨a', log', h, hf⟩)
      · cases h
      · cases h
        exact hf

theorem exists_of_run_orFail_eq_error {wrap : ε → RunFault} {x : Except ε α}
    {fault : RunFault} {log log' : List Log.Message}
    (h : (orFail wrap x).run log = (.error fault, log')) : ∃ e, x = .error e ∧ wrap e = fault := by
  cases x with
  | ok a => cases h
  | error e =>
      cases h
      exact ⟨e, rfl, rfl⟩

theorem run_validate_of_error {t : Toolkit} {languages : List Language}
    {fault : Grammar.PoolFault} (h : (Grammar.validate t.grammars languages).1 = .error fault)
    (log : List Log.Message) :
    ∃ log', (validate t languages).run log = (.error (.grammar fault), log') := by
  rw [validate]
  dsimp only
  rw [run_bind_of_ok (run_say_eq_ok_iff.mpr rfl), h]
  exact ⟨_, rfl⟩

theorem exists_of_run_validate_eq_error {t : Toolkit} {languages : List Language}
    {fault : RunFault} {log log' : List Log.Message}
    (h : (validate t languages).run log = (.error fault, log')) :
    ∃ e, (Grammar.validate t.grammars languages).1 = .error e ∧ .grammar e = fault := by
  rcases run_bind_eq_error_iff.mp h with h | ⟨_, _, -, h⟩
  · cases h
  · exact exists_of_run_orFail_eq_error h

end Running

/-! ## Runs that return -/

/-- A run on these options comes to its tasks: the languages are ready, the root is opened, the
files are listed and the settings can be read. -/
structure Ready (e : Surroundings) (root : String) (o : Options) (scanner : Scanner)
    (scan : Scanner.Outcome) : Prop where
  named_ready : (Grammar.validate e.toolkit.grammars (namedLanguages e.registry o)).1 = .ok ()
  opened : ∃ warnings, Scanner.open e.world root o none = .ok (scanner, warnings)
  scanned : scanner.run e.registry none = .ok scan
  present_ready :
    (Grammar.validate e.toolkit.grammars (presentLanguages o scan.found)).1 = .ok ()
  settings : ∃ wanted, wantedWorkers e o = .ok wanted

/-- The start of a run succeeds exactly if the run comes to its tasks. -/
theorem prepare_eq_ok_iff {e : Surroundings} {root : String} {o : Options}
    {scanner : Scanner} {scan : Scanner.Outcome} {log : List Log.Message} :
    (∃ log', (prepare e root o).run log = (.ok (scanner, scan), log')) ↔
      Ready e root o scanner scan := by
  constructor
  · rintro ⟨log', h⟩
    obtain ⟨_, _, hnamed, h⟩ := Running.run_bind_eq_ok_iff.mp h
    obtain ⟨⟨_, warnings⟩, _, hopen, h⟩ := Running.run_bind_eq_ok_iff.mp h
    obtain ⟨_, _, -, h⟩ := Running.run_bind_eq_ok_iff.mp h
    obtain ⟨_, _, hscan, h⟩ := Running.run_bind_eq_ok_iff.mp h
    obtain ⟨_, _, -, h⟩ := Running.run_bind_eq_ok_iff.mp h
    obtain ⟨_, _, hpresent, h⟩ := Running.run_bind_eq_ok_iff.mp h
    obtain ⟨wanted, _, hwanted, h⟩ := Running.run_bind_eq_ok_iff.mp h
    obtain ⟨_, _, -, h⟩ := Running.run_bind_eq_ok_iff.mp h
    cases (Running.run_pure_eq_ok_iff.mp h).1
    exact {
      named_ready := (Running.run_validate_eq_ok_iff.mp hnamed).1
      opened := ⟨warnings, (Running.run_orFail_eq_ok_iff.mp hopen).1⟩
      scanned := (Running.run_orFail_eq_ok_iff.mp hscan).1
      present_ready := (Running.run_validate_eq_ok_iff.mp hpresent).1
      settings := ⟨wanted, (Running.run_orFail_eq_ok_iff.mp hwanted).1⟩ }
  · intro hready
    obtain ⟨warnings, hopen⟩ := hready.opened
    obtain ⟨wanted, hwanted⟩ := hready.settings
    rw [prepare,
      Running.run_bind_of_ok (Running.run_validate_eq_ok_iff.mpr ⟨hready.named_ready, rfl⟩),
      Running.run_bind_of_ok (Running.run_orFail_eq_ok_iff.mpr ⟨hopen, rfl⟩)]
    show ∃ log', (Running.say warnings >>= _).run _ = _
    rw [Running.run_bind_of_ok (Running.run_say_eq_ok_iff.mpr rfl),
      Running.run_bind_of_ok (Running.run_orFail_eq_ok_iff.mpr ⟨hready.scanned, rfl⟩),
      Running.run_bind_of_ok (Running.run_say_eq_ok_iff.mpr rfl),
      Running.run_bind_of_ok (Running.run_validate_eq_ok_iff.mpr ⟨hready.present_ready, rfl⟩),
      Running.run_bind_of_ok (Running.run_orFail_eq_ok_iff.mpr ⟨hwanted, rfl⟩),
      Running.run_bind_of_ok (Running.run_say_eq_ok_iff.mpr rfl)]
    exact ⟨_, rfl⟩

/-- A run concludes with what its tally comes to, unless there was a fatal failure. -/
theorem conclude_eq_ok_iff {r : Registry} {t : Tally} {result : Report × List Challenge}
    {log : List Log.Message} :
    (∃ log', (conclude r t).run log = (.ok result, log')) ↔
      t.fatal = none ∧ result = finish r t := by
  unfold conclude
  cases t.fatal with
  | some failure =>
      constructor
      · rintro ⟨log', h⟩
        cases h
      · rintro ⟨h, -⟩
        cases h
  | none =>
      constructor
      · rintro ⟨log', h⟩
        obtain ⟨_, _, -, h⟩ := Running.run_bind_eq_ok_iff.mp h
        exact ⟨rfl, (Running.run_pure_eq_ok_iff.mp h).1.symm⟩
      · rintro ⟨-, rfl⟩
        dsimp only
        rw [Running.run_bind_of_ok (Running.run_say_eq_ok_iff.mpr rfl)]
        exact ⟨_, rfl⟩

/-- What the workers of a run share. -/
def Surroundings.job (e : Surroundings) (scanner : Scanner) : Job :=
  ⟨e.toolkit, e.registry, scanner⟩

/-- What the results of a run amount to. -/
def Job.tally (j : Job) (schedule : Schedule) (scan : Scanner.Outcome) : Tally :=
  (startTally scan.stats).addAll ((j.attempts schedule (tasksOf scan.found)).map Attempt.result)

/-- What a run returns. -/
def Job.harvest (j : Job) (schedule : Schedule) (scan : Scanner.Outcome) : Harvest where
  challenges := (finish j.registry (j.tally schedule scan)).2
  report := (finish j.registry (j.tally schedule scan)).1
  progress := progressPoints scan.found.length
  total := scan.found.length
  gitCalls :=
    scan.gitCalls ++ j.gitQuestions ((tasksOf scan.found).filter (!schedule.cancelled ·))

/-- **A run returns** exactly if it comes to its tasks and no failure of a grammar arrives. -/
theorem extractWith_eq_ok_iff {e : Surroundings} {root : String} {o : Options}
    {schedule : Schedule} {log : List Log.Message} {harvest : Harvest} :
    (∃ log', (extractWith e root o schedule).run log = (.ok harvest, log')) ↔
      ∃ scanner scan, Ready e root o scanner scan ∧
        ((e.job scanner).tally schedule scan).fatal = none ∧
        harvest = (e.job scanner).harvest schedule scan := by
  constructor
  · rintro ⟨log', h⟩
    obtain ⟨⟨scanner, scan⟩, _, hprepare, h⟩ := Running.run_bind_eq_ok_iff.mp h
    obtain ⟨_, _, -, h⟩ := Running.run_bind_eq_ok_iff.mp h
    obtain ⟨_, _, hconclude, h⟩ := Running.run_bind_eq_ok_iff.mp h
    obtain ⟨hfatal, rfl⟩ := conclude_eq_ok_iff.mp ⟨_, hconclude⟩
    exact ⟨scanner, scan, prepare_eq_ok_iff.mp ⟨_, hprepare⟩, hfatal,
      (Running.run_pure_eq_ok_iff.mp h).1.symm⟩
  · rintro ⟨scanner, scan, hready, hfatal, rfl⟩
    obtain ⟨log₁, hprepare⟩ : ∃ log₁, (prepare e root o).run log = (.ok (scanner, scan), log₁) :=
      prepare_eq_ok_iff.mpr hready
    rw [extractWith, Running.run_bind_of_ok hprepare]
    show ∃ log', (Running.say _ >>= _).run _ = _
    rw [Running.run_bind_of_ok (Running.run_say_eq_ok_iff.mpr rfl)]
    obtain ⟨log₂, hconclude⟩ := conclude_eq_ok_iff.mpr ⟨hfatal, rfl⟩
    refine ⟨log₂, Running.run_bind_eq_ok_iff.mpr ⟨_, log₂, hconclude, ?_⟩⟩
    rfl

/-! ## A small run -/

open Repository.Scanner (sampleRegistry sampleWorld sampleOptions sampleScanner sampleLanguage
  sample_open sample_run mixedWorld mixedScanner mixedFound mixed_open)

/-- The surroundings of a run over the small repository. -/
def sampleSurroundings : Surroundings :=
  ⟨sampleToolkit, sampleRegistry, sampleWorld, [], none⟩

/-- The run over the small repository comes to its one task. -/
theorem sample_ready : ∃ scan,
    Ready sampleSurroundings "/r" (sampleOptions []) (sampleScanner []) scan ∧
      tasksOf scan.found = [⟨0, "a/b/f.sample", sampleLanguage⟩] := by
  obtain ⟨scan, hscan, hfound⟩ := sample_run
  refine ⟨scan, ?_, by rw [hfound]; rfl⟩
  exact {
    named_ready := rfl
    opened := ⟨[], sample_open⟩
    scanned := hscan
    present_ready := by
      rw [hfound]
      rfl
    settings := ⟨_, rfl⟩ }

/-- The surroundings of a run over the mixed repository. -/
def mixedSurroundings (installed : Bool) (notes : List UInt8) : Surroundings :=
  ⟨sampleToolkit, sampleRegistry, mixedWorld installed notes, [], none⟩

theorem mixed_wanted {installed : Bool} {notes : List UInt8} :
    wantedWorkers (mixedSurroundings installed notes) (sampleOptions ["x.*"]) = .ok 1 := by
  have hload : Config.load [] none = .ok ⟨1, defaultMaxFileBytes, 20⟩ := rfl
  show (Config.load [] none).map (·.workers) = .ok 1
  rw [hload]
  rfl

/-- The run over the mixed repository comes to its tasks. -/
theorem mixed_ready {installed : Bool} {notes : List UInt8} {scan : Scanner.Outcome}
    (hscan : (mixedScanner installed notes).run sampleRegistry none = .ok scan)
    (hfound : scan.found = mixedFound) :
    Ready (mixedSurroundings installed notes) "/r" (sampleOptions ["x.*"])
      (mixedScanner installed notes) scan := by
  exact {
    named_ready := rfl
    opened := ⟨[], mixed_open installed notes⟩
    scanned := hscan
    present_ready := by
      rw [hfound]
      rfl
    settings := ⟨1, mixed_wanted⟩ }

end CodeChallenges.Extraction

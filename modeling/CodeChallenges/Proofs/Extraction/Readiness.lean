import CodeChallenges.Proofs.Extraction.Fingerprint
import CodeChallenges.Proofs.Extraction.Pools
import CodeChallenges.Proofs.Registry.History
import CodeChallenges.Proofs.Repository.Fingerprint
/-!
# Grammars fail first

Before a run takes up its tasks it makes all languages ready that its files can have, and if one of
them is not it ends there.  If every registered language is found by its own name, a name stands for
one language, so the pools of the workers make the same languages ready as the check did, and no
file that is processed meets a grammar that fails (`grammar_failures_come_first`).
-/

namespace CodeChallenges

namespace Grammar

/-- A language cannot be initialised: its grammar does not load, or no parser can be built from it,
or it accepts none of the structural patterns. -/
def CannotStart (grammars : Grammars) (l : Language) : Prop :=
  (∃ detail, grammars l.grammar = .error detail) ∨
    ∃ g, grammars l.grammar = .ok g ∧ (g.parserFault ≠ none ∨ g.accepted l.patterns = [])

theorem cannotStart_iff {grammars : Grammars} {l : Language} :
    CannotStart grammars l ↔ ∃ failure, prepare grammars l = .error failure := by
  rw [CannotStart, prepare, load]
  cases grammars l.grammar with
  | error detail => exact iff_of_true (.inl ⟨detail, rfl⟩) ⟨_, rfl⟩
  | ok g =>
      show _ ↔ ∃ failure, (buildParser l g >>= fun _ => compile l g) = .error failure
      cases hfault : g.parserFault with
      | some detail =>
          have hstop : g.parserFault ≠ none := by
            rw [hfault]
            exact Option.some_ne_none detail
          rw [buildParser, hfault]
          exact iff_of_true (.inr ⟨g, rfl, .inl hstop⟩) ⟨_, rfl⟩
      | none =>
          rw [buildParser, hfault]
          show _ ↔ ∃ failure, compile l g = .error failure
          rw [compile]
          cases haccepted : g.accepted l.patterns with
          | nil => exact iff_of_true (.inr ⟨g, rfl, .inr haccepted⟩) ⟨_, rfl⟩
          | cons pattern rest =>
              refine iff_of_false ?_ ?_
              · rintro (⟨detail, hload⟩ | ⟨g', hload, hstop⟩)
                · cases hload
                · obtain rfl : g = g' := Except.ok.inj hload
                  rw [hfault, haccepted] at hstop
                  simp at hstop
              · rintro ⟨failure, hcompile⟩
                cases hcompile

end Grammar

/-- Every registered language is found by its own name. -/
def Registry.FindsOwnNames (r : Registry) : Prop :=
  ∀ l ∈ r.languages, r.byName l.name = some l

theorem Registry.FindsOwnNames.namedApart {r : Registry} (h : r.FindsOwnNames) :
    Grammar.NamedApart r.languages := by
  intro l hl m hm hname
  have hboth : some l = some m := by
    rw [← h l hl, ← h m hm, hname]
  exact Option.some.inj hboth

namespace Extraction

open Repository (Scanner)
open Grammar (CannotStart)

/-! ## The languages of a run -/

/-- A run needs a language: it is registered and the options name it, or they name none and a chosen
file has it. -/
def Surroundings.Needs (e : Surroundings) (root : String) (o : Options) (l : Language) : Prop :=
  match o.languages with
  | some names => ∃ name ∈ names, e.registry.byName name = some l
  | none => ∃ scanner warnings scan path,
      Scanner.open e.world root o none = .ok (scanner, warnings) ∧
        scanner.run e.registry none = .ok scan ∧ (path, l) ∈ scan.found

variable {e : Surroundings} {root : String} {o : Options} {scanner : Scanner}
  {scan : Scanner.Outcome}

theorem mem_of_byName {r : Registry} {name : String} {l : Language} (h : r.byName name = some l) :
    l ∈ r.languages :=
  r.looksUpLast.mem (.inl h)

theorem mem_namedLanguages_iff {r : Registry} {l : Language} :
    l ∈ namedLanguages r o ↔ ∃ names, o.languages = some names ∧
      ∃ name ∈ names, r.byName name = some l := by
  rw [namedLanguages]
  cases o.languages with
  | none => exact iff_of_false List.not_mem_nil (by rintro ⟨names, hnames, -⟩; cases hnames)
  | some names =>
      rw [List.mem_filterMap]
      constructor
      · intro h
        exact ⟨names, rfl, h⟩
      · rintro ⟨names', heq, h⟩
        rwa [Option.some.inj heq]

theorem mem_of_mem_named {r : Registry} {l : Language} (h : l ∈ namedLanguages r o) :
    l ∈ r.languages := by
  obtain ⟨names, -, name, -, hname⟩ := mem_namedLanguages_iff.mp h
  exact mem_of_byName hname

/-- The languages in order of appearance are those of the files, one for each name. -/
theorem foldl_present (found : List (String × Language)) (seen : List Language) :
    let present := found.foldl (fun seen f =>
      if seen.any (·.name == f.2.name) then seen else seen ++ [f.2]) seen
    (∀ l ∈ present, l ∈ seen ∨ ∃ path, (path, l) ∈ found) ∧
      (∀ l ∈ seen, l ∈ present) ∧ ∀ f ∈ found, ∃ m ∈ present, m.name = f.2.name := by
  induction found generalizing seen with
  | nil => exact ⟨fun l hl => .inl hl, fun l hl => hl, List.forall_mem_nil _⟩
  | cons f found ih =>
      rw [List.foldl_cons]
      have hlater : ∀ {l}, (∃ path, (path, l) ∈ found) → ∃ path, (path, l) ∈ f :: found := by
        rintro l ⟨path, hpath⟩
        exact ⟨path, List.mem_cons_of_mem f hpath⟩
      by_cases hany : seen.any (·.name == f.2.name) = true
      · rw [if_pos hany]
        obtain ⟨hfrom, hkeeps, hnames⟩ := ih seen
        obtain ⟨m, hm, hname⟩ := List.any_eq_true.mp hany
        refine ⟨fun l hl => (hfrom l hl).imp_right hlater, hkeeps, ?_⟩
        exact List.forall_mem_cons.mpr ⟨⟨m, hkeeps m hm, beq_iff_eq.mp hname⟩, hnames⟩
      · rw [if_neg hany]
        obtain ⟨hfrom, hkeeps, hnames⟩ := ih (seen ++ [f.2])
        refine ⟨fun l hl => ?_, fun l hl => hkeeps l (List.mem_append_left _ hl), ?_⟩
        · rcases hfrom l hl with hseen | hfound
          · rcases List.mem_append.mp hseen with hseen | hself
            · exact .inl hseen
            · rw [List.mem_singleton.mp hself]
              exact .inr ⟨f.1, List.mem_cons_self⟩
          · exact .inr (hlater hfound)
        · refine List.forall_mem_cons.mpr ⟨⟨f.2, ?_, rfl⟩, hnames⟩
          exact hkeeps f.2 (List.mem_append_right _ List.mem_cons_self)

theorem presentLanguages_of_none (found : List (String × Language)) (h : o.languages = none) :
    (∀ l ∈ presentLanguages o found, ∃ path, (path, l) ∈ found) ∧
      ∀ f ∈ found, ∃ m ∈ presentLanguages o found, m.name = f.2.name := by
  obtain ⟨hfrom, -, hnames⟩ := foldl_present found []
  rw [presentLanguages, h]
  exact ⟨fun l hl => (hfrom l hl).resolve_left List.not_mem_nil, hnames⟩

theorem presentLanguages_of_some {found : List (String × Language)} {names : List String}
    (h : o.languages = some names) : presentLanguages o found = [] := by
  rw [presentLanguages, h]

/-- The language of a chosen file is registered, and the options want it. -/
theorem language_of_mem_found (hscan : scanner.run e.registry none = .ok scan)
    {f : String × Language} (hf : f ∈ scan.found) :
    f.2 ∈ e.registry.languages ∧ scanner.options.wants f.2.name = true := by
  have hwanted := Scanner.wantedLanguage_of_mem_found hscan hf
  rw [Scanner.wantedLanguage, Option.filter_eq_some_iff] at hwanted
  exact ⟨e.registry.looksUpLast.mem (.inr (.inl hwanted.1)), hwanted.2⟩

theorem Surroundings.Needs.mem {l : Language} (h : e.Needs root o l) : l ∈ e.registry.languages := by
  rw [Needs] at h
  split at h
  · obtain ⟨name, -, hname⟩ := h
    exact mem_of_byName hname
  · obtain ⟨scanner, warnings, scan, path, -, hscan, hpath⟩ := h
    exact (language_of_mem_found hscan hpath).1

/-- What is checked before the scan is needed. -/
theorem needs_of_mem_named {l : Language} (h : l ∈ namedLanguages e.registry o) :
    e.Needs root o l := by
  obtain ⟨names, hnames, hname⟩ := mem_namedLanguages_iff.mp h
  rw [Surroundings.Needs, hnames]
  exact hname

/-- What is checked after the scan is needed. -/
theorem needs_of_mem_present {warnings : List Log.Message}
    (hopen : Scanner.open e.world root o none = .ok (scanner, warnings))
    (hscan : scanner.run e.registry none = .ok scan) {l : Language}
    (h : l ∈ presentLanguages o scan.found) : e.Needs root o l := by
  cases hlanguages : o.languages with
  | some names =>
      rw [presentLanguages_of_some hlanguages] at h
      cases h
  | none =>
      obtain ⟨path, hpath⟩ := (presentLanguages_of_none scan.found hlanguages).1 l h
      rw [Surroundings.Needs, hlanguages]
      exact ⟨scanner, warnings, scan, path, hopen, hscan, hpath⟩

/-- The language of a chosen file is among those that are checked. -/
theorem checked_of_mem_found (hnames : e.registry.FindsOwnNames) {warnings : List Log.Message}
    (hopen : Scanner.open e.world root o none = .ok (scanner, warnings))
    (hscan : scanner.run e.registry none = .ok scan) {f : String × Language}
    (hf : f ∈ scan.found) :
    f.2 ∈ namedLanguages e.registry o ∨ f.2 ∈ presentLanguages o scan.found := by
  obtain ⟨hmem, hwants⟩ := language_of_mem_found hscan hf
  obtain ⟨-, -, hoptions, -⟩ := Scanner.open_eq_ok hopen
  rw [hoptions, Options.wants] at hwants
  cases hlanguages : o.languages with
  | some names =>
      rw [hlanguages] at hwants
      exact .inl (mem_namedLanguages_iff.mpr
        ⟨names, hlanguages, f.2.name, List.contains_iff_mem.mp hwants, hnames f.2 hmem⟩)
  | none =>
      obtain ⟨hfrom, hall⟩ := presentLanguages_of_none scan.found hlanguages
      obtain ⟨m, hm, hname⟩ := hall f hf
      obtain ⟨path, hpath⟩ := hfrom m hm
      have hregistered := (language_of_mem_found hscan hpath).1
      rw [hnames.namedApart m hregistered f.2 hmem hname] at hm
      exact .inr hm

/-! ## The calls of a run -/

/-- Calls that a run can make: none unless it comes to its tasks. -/
def Surroundings.MakesCalls (e : Surroundings) (root : String) (o : Options) (calls : List Call) :
    Prop :=
  calls = [] ∨ ∃ scanner scan pools, Ready e root o scanner scan ∧
    Calls (e.job scanner) (tasksOf scan.found) calls pools

/-! ## Runs that end at a grammar -/

/-- A run whose check fails before the scan ends there. -/
theorem prepare_of_named_error {fault : Grammar.PoolFault}
    (h : (Grammar.validate e.toolkit.grammars (namedLanguages e.registry o)).1 = .error fault)
    (log : List Log.Message) :
    ∃ log', (prepare e root o).run log = (.error (.grammar fault), log') := by
  obtain ⟨log', hrun⟩ := Running.run_validate_of_error h log
  exact ⟨log', Running.run_bind_of_error hrun⟩

/-- A run whose check fails after the scan ends there. -/
theorem prepare_of_present_error {fault : Grammar.PoolFault} {warnings : List Log.Message}
    (hnamed : (Grammar.validate e.toolkit.grammars (namedLanguages e.registry o)).1 = .ok ())
    (hopen : Scanner.open e.world root o none = .ok (scanner, warnings))
    (hscan : scanner.run e.registry none = .ok scan)
    (h : (Grammar.validate e.toolkit.grammars (presentLanguages o scan.found)).1 = .error fault)
    (log : List Log.Message) :
    ∃ log', (prepare e root o).run log = (.error (.grammar fault), log') := by
  rw [prepare, Running.run_bind_of_ok (Running.run_validate_eq_ok_iff.mpr ⟨hnamed, rfl⟩),
    Running.run_bind_of_ok (Running.run_orFail_eq_ok_iff.mpr ⟨hopen, rfl⟩)]
  show ∃ log', (Running.say warnings >>= _).run _ = _
  rw [Running.run_bind_of_ok (Running.run_say_eq_ok_iff.mpr rfl),
    Running.run_bind_of_ok (Running.run_orFail_eq_ok_iff.mpr ⟨hscan, rfl⟩),
    Running.run_bind_of_ok (Running.run_say_eq_ok_iff.mpr rfl)]
  obtain ⟨log', hrun⟩ := Running.run_validate_of_error h _
  exact ⟨log', Running.run_bind_of_error hrun⟩

/-- If a run ends at a grammar before its tasks, then at one of the two checks. -/
theorem checks_of_prepare_eq_error {fault : Grammar.PoolFault} {log log' : List Log.Message}
    (h : (prepare e root o).run log = (.error (.grammar fault), log')) :
    (Grammar.validate e.toolkit.grammars (namedLanguages e.registry o)).1 = .error fault ∨
      ∃ scanner warnings scan,
        Scanner.open e.world root o none = .ok (scanner, warnings) ∧
          scanner.run e.registry none = .ok scan ∧
          (Grammar.validate e.toolkit.grammars (presentLanguages o scan.found)).1 =
            .error fault := by
  rcases Running.run_bind_eq_error_iff.mp h with h | ⟨_, _, -, h⟩
  · obtain ⟨_, hnamed, hfault⟩ := Running.exists_of_run_validate_eq_error h
    cases hfault
    exact .inl hnamed
  rcases Running.run_bind_eq_error_iff.mp h with h | ⟨⟨scanner, warnings⟩, _, hopen, h⟩
  · obtain ⟨_, -, hfault⟩ := Running.exists_of_run_orFail_eq_error h
    cases hfault
  rcases Running.run_bind_eq_error_iff.mp h with h | ⟨_, _, -, h⟩
  · cases h
  rcases Running.run_bind_eq_error_iff.mp h with h | ⟨scan, _, hscan, h⟩
  · obtain ⟨_, -, hfault⟩ := Running.exists_of_run_orFail_eq_error h
    cases hfault
  rcases Running.run_bind_eq_error_iff.mp h with h | ⟨_, _, -, h⟩
  · cases h
  rcases Running.run_bind_eq_error_iff.mp h with h | ⟨_, _, -, h⟩
  · obtain ⟨_, hpresent, hfault⟩ := Running.exists_of_run_validate_eq_error h
    cases hfault
    exact .inr ⟨scanner, warnings, scan, (Running.run_orFail_eq_ok_iff.mp hopen).1,
      (Running.run_orFail_eq_ok_iff.mp hscan).1, hpresent⟩
  rcases Running.run_bind_eq_error_iff.mp h with h | ⟨_, _, -, h⟩
  · obtain ⟨_, -, hfault⟩ := Running.exists_of_run_orFail_eq_error h
    cases hfault
  rcases Running.run_bind_eq_error_iff.mp h with h | ⟨_, _, -, h⟩
  · cases h
  · cases h

/-! ## Grammars fail first -/

/-- The tasks of a run have languages that were made ready. -/
theorem Ready.task_ready (hnames : e.registry.FindsOwnNames) (h : Ready e root o scanner scan) :
    ∀ task ∈ tasksOf scan.found, task.language ∈ e.registry.languages ∧
      ∃ patterns, Grammar.prepare e.toolkit.grammars task.language = .ok patterns := by
  intro task htask
  have hfound := mem_found_of_mem_tasksOf htask
  obtain ⟨warnings, hopen⟩ := h.opened
  refine ⟨(language_of_mem_found h.scanned hfound).1, ?_⟩
  rcases checked_of_mem_found hnames hopen h.scanned hfound with hnamed | hpresent
  · exact (Grammar.validate_eq_ok_iff hnames.namedApart fun l hl =>
      mem_of_mem_named hl).mp h.named_ready _ hnamed
  · exact (Grammar.validate_eq_ok_iff hnames.namedApart fun l hl =>
      (needs_of_mem_present hopen h.scanned hl).mem).mp h.present_ready _ hpresent

/-- A run that needs a language that cannot start comes to no task: it ends with the failure of a
language that it needs. -/
theorem prepare_of_cannotStart (hnames : e.registry.FindsOwnNames) {l : Language}
    (hl : e.Needs root o l) (hstart : CannotStart e.toolkit.grammars l) :
    ∃ failure, (∃ m, e.Needs root o m ∧ Grammar.prepare e.toolkit.grammars m = .error failure) ∧
      ∀ log, ∃ log', (prepare e root o).run log = (.error (.grammar (.notReady failure)), log') := by
  have hnot : ¬ ∃ patterns, Grammar.prepare e.toolkit.grammars l = .ok patterns := by
    obtain ⟨failure, hfailure⟩ := Grammar.cannotStart_iff.mp hstart
    rintro ⟨patterns, hpatterns⟩
    rw [hfailure] at hpatterns
    cases hpatterns
  have hnamedMem : ∀ m ∈ namedLanguages e.registry o, m ∈ e.registry.languages :=
    fun _ => mem_of_mem_named
  cases hnamed : (Grammar.validate e.toolkit.grammars (namedLanguages e.registry o)).1 with
  | error fault =>
      obtain ⟨m, hm, failure, hfailure, rfl⟩ :=
        Grammar.exists_of_validate_eq_error hnames.namedApart hnamedMem hnamed
      exact ⟨failure, ⟨m, needs_of_mem_named hm, hfailure⟩, prepare_of_named_error hnamed⟩
  | ok _ =>
      have hready := (Grammar.validate_eq_ok_iff hnames.namedApart hnamedMem).mp hnamed
      cases hlanguages : o.languages with
      | some names =>
          rw [Surroundings.Needs, hlanguages] at hl
          have hmem : l ∈ namedLanguages e.registry o :=
            mem_namedLanguages_iff.mpr ⟨names, hlanguages, hl⟩
          exact absurd (hready l hmem) hnot
      | none =>
          rw [Surroundings.Needs, hlanguages] at hl
          obtain ⟨scanner, warnings, scan, path, hopen, hscan, hpath⟩ := hl
          have hpresentMem : ∀ m ∈ presentLanguages o scan.found, m ∈ e.registry.languages :=
            fun m hm => (needs_of_mem_present hopen hscan hm).mem
          cases hpresent :
              (Grammar.validate e.toolkit.grammars (presentLanguages o scan.found)).1 with
          | error fault =>
              obtain ⟨m, hm, failure, hfailure, rfl⟩ :=
                Grammar.exists_of_validate_eq_error hnames.namedApart hpresentMem hpresent
              exact ⟨failure, ⟨m, needs_of_mem_present hopen hscan hm, hfailure⟩,
                prepare_of_present_error hnamed hopen hscan hpresent⟩
          | ok _ =>
              rcases checked_of_mem_found hnames hopen hscan hpath with hmem | hmem
              · exact absurd (hready l hmem) hnot
              · exact absurd ((Grammar.validate_eq_ok_iff hnames.namedApart hpresentMem).mp
                  hpresent l hmem) hnot

/-- A run whose languages can all start does not end at a grammar. -/
theorem extractWith_ne_grammar_error (hnames : e.registry.FindsOwnNames)
    (h : ∀ l, e.Needs root o l → ¬ CannotStart e.toolkit.grammars l) (schedule : Schedule)
    (log : List Log.Message) (fault : Grammar.PoolFault) (log' : List Log.Message) :
    (extractWith e root o schedule).run log ≠ (.error (.grammar fault), log') := by
  intro hrun
  rcases Running.run_bind_eq_error_iff.mp hrun with hprepare | ⟨⟨scanner, scan⟩, _, hprepare, hrun⟩
  · -- The start of the run fails only at a language that it needs.
    rcases checks_of_prepare_eq_error hprepare with hnamed | ⟨_, _, _, hopen, hscan, hpresent⟩
    · obtain ⟨m, hm, failure, hfailure, -⟩ :=
        Grammar.exists_of_validate_eq_error hnames.namedApart
          (fun m hm => mem_of_mem_named hm) hnamed
      exact h m (needs_of_mem_named hm) (Grammar.cannotStart_iff.mpr ⟨failure, hfailure⟩)
    · obtain ⟨m, hm, failure, hfailure, -⟩ :=
        Grammar.exists_of_validate_eq_error hnames.namedApart
          (fun m hm => (needs_of_mem_present hopen hscan hm).mem) hpresent
      exact h m (needs_of_mem_present hopen hscan hm)
        (Grammar.cannotStart_iff.mpr ⟨failure, hfailure⟩)
  · -- After that nothing fatal arrives.
    have htasks := (prepare_eq_ok_iff.mp ⟨_, hprepare⟩).task_ready hnames
    have hfatal : ((e.job scanner).tally schedule scan).fatal = none := by
      refine Job.fatal_tally fun task htask _ failure => ?_
      obtain ⟨-, patterns, hready⟩ := htasks task htask
      exact Job.process_ne_grammar (j := e.job scanner) hready failure
    rcases Running.run_bind_eq_error_iff.mp hrun with hsay | ⟨_, _, -, hrun⟩
    · cases hsay
    rcases Running.run_bind_eq_error_iff.mp hrun with hconclude | ⟨_, _, -, hpure⟩
    · change (conclude e.registry ((e.job scanner).tally schedule scan)).run _ = _ at hconclude
      rw [conclude, hfatal] at hconclude
      cases hconclude
    · cases hpure

/-- **Grammars fail first**, if every registered language is found by its own name: a run that needs
a language that cannot be initialised ends with the failure of one that it needs and processes no
file; a file that is processed, by whichever worker and with whatever its pool has kept, meets no
grammar that fails, and so it is with all that workers process in any order of their steps; and a
run whose languages can all be initialised does not end at a grammar. -/
theorem grammar_failures_come_first (hnames : e.registry.FindsOwnNames) (root : String)
    (o : Options) :
    (∀ l, e.Needs root o l → CannotStart e.toolkit.grammars l →
      (∃ failure,
        (∃ m, e.Needs root o m ∧ Grammar.prepare e.toolkit.grammars m = .error failure) ∧
        ∀ schedule log, ∃ log',
          (extractWith e root o schedule).run log =
            (.error (.grammar (.notReady failure)), log')) ∧
      ∀ calls, e.MakesCalls root o calls → calls = []) ∧
    (∀ calls, e.MakesCalls root o calls → ∀ c ∈ calls, ¬ c.IsGrammarError) ∧
    (∀ scanner scan, Ready e root o scanner scan →
      ∀ wanted events s, Workers.Run (e.job scanner) scan wanted events s →
        ∃ calls, e.MakesCalls root o calls ∧
          calls.map (fun c => (c.worker, c.task)) =
            events.filterMap Workers.Event.processed?) ∧
    ((∀ l, e.Needs root o l → ¬ CannotStart e.toolkit.grammars l) →
      ∀ schedule log fault log',
        (extractWith e root o schedule).run log ≠ (.error (.grammar fault), log')) := by
  refine ⟨fun l hl hstart => ?_, ?_, ?_, extractWith_ne_grammar_error hnames⟩
  · obtain ⟨failure, hfailure, hprepare⟩ := prepare_of_cannotStart hnames hl hstart
    refine ⟨⟨failure, hfailure, fun schedule log => ?_⟩, fun calls hcalls => ?_⟩
    · obtain ⟨log', hrun⟩ := hprepare log
      exact ⟨log', Running.run_bind_of_error hrun⟩
    · rcases hcalls with hcalls | ⟨scanner, scan, pools, hready, -⟩
      · exact hcalls
      · obtain ⟨log', hok⟩ : ∃ log', (prepare e root o).run [] = (.ok (scanner, scan), log') :=
          prepare_eq_ok_iff.mpr hready
        obtain ⟨log'', herror⟩ := hprepare []
        rw [herror] at hok
        cases hok
  · rintro calls (rfl | ⟨scanner, scan, pools, hready, hcalls⟩) c hc
    · cases hc
    · have htasks := hready.task_ready hnames
      obtain ⟨htask, hresult⟩ := (hcalls.results hnames.namedApart htasks).2 c hc
      obtain ⟨-, patterns, hprepare⟩ := htasks c.task htask
      rintro ⟨failure, hfault | hfault⟩
      · rw [hresult] at hfault
        cases hfault
      · rw [hresult] at hfault
        exact Job.process_ne_grammar (j := e.job scanner) hprepare failure (Except.ok.inj hfault)
  · intro scanner scan hready wanted events s hrun
    obtain ⟨calls, pools, hcalls, hmap⟩ := hrun.exists_calls
    exact ⟨calls, .inr ⟨scanner, scan, pools, hready, hcalls⟩, hmap⟩

open Repository.Scanner (sampleRegistry sampleOptions sampleScanner sampleLanguage sample_open
  sample_run)

/-- The surroundings of the small run without any grammar. -/
def bareSurroundings : Surroundings :=
  { sampleSurroundings with toolkit := { sampleToolkit with grammars := Grammar.only [] } }

theorem sample_findsOwnNames : sampleRegistry.FindsOwnNames := by
  have hkeyed : sampleRegistry.Keyed := List.nodup_singleton _
  exact List.forall_mem_singleton.mpr (@Registry.byName_of_last sampleRegistry hkeyed [] sampleLanguage rfl)

/-- Without its grammar the run over the small repository fails on every schedule; with it, a fourth
worker can process the file. -/
theorem grammar_failures_come_first_sample :
    bareSurroundings.Needs "/r" (sampleOptions []) sampleLanguage ∧
    CannotStart bareSurroundings.toolkit.grammars sampleLanguage ∧
    (∃ failure, ∀ schedule log, ∃ log',
      (extractWith bareSurroundings "/r" (sampleOptions []) schedule).run log =
        (.error (.grammar (.notReady failure)), log')) ∧
    ∃ c : Call, c.worker = 3 ∧ c.task = ⟨0, "a/b/f.sample", sampleLanguage⟩ ∧
      sampleSurroundings.MakesCalls "/r" (sampleOptions []) [c] ∧ ¬ c.IsGrammarError := by
  have hneeds : bareSurroundings.Needs "/r" (sampleOptions []) sampleLanguage := by
    obtain ⟨scan, hscan, hfound⟩ := sample_run
    refine ⟨sampleScanner [], [], scan, "a/b/f.sample", sample_open, hscan, ?_⟩
    rw [hfound]
    exact List.mem_cons_self
  have hstart : CannotStart bareSurroundings.toolkit.grammars sampleLanguage := .inl ⟨_, rfl⟩
  refine ⟨hneeds, hstart, ?_, ?_⟩
  · obtain ⟨⟨failure, -, hrun⟩, -⟩ :=
      (grammar_failures_come_first (e := bareSurroundings) sample_findsOwnNames "/r"
        (sampleOptions [])).1 _ hneeds hstart
    exact ⟨failure, hrun⟩
  · obtain ⟨scan, hready, htasks⟩ := sample_ready
    have htask : (⟨0, "a/b/f.sample", sampleLanguage⟩ : Task) ∈ tasksOf scan.found := by
      rw [htasks]
      exact List.mem_cons_self
    obtain ⟨⟨result, session, pool⟩, hprocess⟩ :
        ∃ ended, ((sampleSurroundings.job (sampleScanner [])).processIn 3
          ⟨0, "a/b/f.sample", sampleLanguage⟩).run ({}, { owner := 3 }) = ended := ⟨_, rfl⟩
    have hcalls : sampleSurroundings.MakesCalls "/r" (sampleOptions [])
        [⟨3, ⟨0, "a/b/f.sample", sampleLanguage⟩, result⟩] :=
      .inr ⟨_, scan, _, hready, Calls.start.more 3 htask hprocess⟩
    refine ⟨_, rfl, rfl, hcalls, ?_⟩
    exact (grammar_failures_come_first sample_findsOwnNames "/r" (sampleOptions [])).2.1 _ hcalls _
      List.mem_cons_self

end Extraction

end CodeChallenges

import CodeChallenges.Grammar.Pool
import CodeChallenges.Proofs.Outcome
/-!
# Pools of parsers

A pool remembers what it has made under the names of languages.  As long as a name belongs to one
language, what it remembers is what would be made anew (`Pool.Sound`), so its answers do not depend
on the calls before: the parser of a language is there exactly if it can be built, and the patterns
are those that the grammar accepts.  Languages that are made ready one after another fail where the
first of them fails (`validate_eq`).
-/

namespace CodeChallenges.Grammar

variable {α β γ δ : Type}

/-! ## Steps of a pool -/

namespace Pooled

/-- In every session a step keeps a property of the pool, and its result, as far as it is looked at,
is a given one. -/
def Answers (keeps : Pool → Prop) (step : Pooled α) (view : α → β) (answer : Except Failure β) :
    Prop :=
  ∀ session pool, keeps pool → ∃ result session' pool',
    step.run (session, pool) = (result, (session', pool')) ∧ keeps pool' ∧
      result.map view = answer.mapError .notReady

variable {keeps : Pool → Prop}

theorem answers_pure (a : α) (view : α → β) : Answers keeps (pure a) view (.ok (view a)) :=
  fun session pool hkeeps => ⟨.ok a, session, pool, rfl, hkeeps, rfl⟩

theorem answers_throw (failure : Failure) (view : α → β) :
    Answers keeps (throw (.notReady failure)) view (.error failure) :=
  fun session pool hkeeps => ⟨.error (.notReady failure), session, pool, rfl, hkeeps, rfl⟩

/-- Two steps one after the other answer as the answers of each one say. -/
theorem Answers.bind {x : Pooled α} {f : α → Pooled γ} {view : α → β} {view' : γ → δ}
    {answer : Except Failure β} {answers : β → Except Failure δ} (hx : Answers keeps x view answer)
    (hf : ∀ a, answer = .ok (view a) → Answers keeps (f a) view' (answers (view a))) :
    Answers keeps (x >>= f) view' (answer >>= answers) := by
  intro session pool hkeeps
  obtain ⟨result, session', pool', hrun, hkeeps', hresult⟩ := hx session pool hkeeps
  rw [run_bind_state, hrun]
  cases result with
  | error fault =>
      cases answer with
      | ok b => cases hresult
      | error failure =>
          cases hresult
          exact ⟨_, session', pool', rfl, hkeeps', rfl⟩
  | ok a =>
      cases answer with
      | error failure => cases hresult
      | ok b =>
          obtain rfl : view a = b := Except.ok.inj hresult
          exact hf a rfl session' pool' hkeeps'

/-- A step that cannot fail does not change the answer of the next one. -/
theorem Answers.before {x : Pooled α} {f : α → Pooled γ} {view : α → β} {view' : γ → δ} {b : β}
    {answer : Except Failure δ} (hx : Answers keeps x view (.ok b))
    (hf : ∀ a, Answers keeps (f a) view' answer) : Answers keeps (x >>= f) view' answer :=
  @Answers.bind _ _ _ _ keeps x f view view' (.ok b) (fun _ => answer) hx fun a _ => hf a

theorem run_get_bind (f : Session × Pool → Pooled α) (state : Session × Pool) :
    (get >>= f).run state = (f state).run state :=
  rfl

/-- It is enough that a step goes, in each pool, like one that answers so. -/
theorem Answers.of_run_eq {step : Pooled α} {view : α → β} {answer : Except Failure β}
    (h : ∀ session pool, keeps pool → ∃ step' : Pooled α,
      step.run (session, pool) = step'.run (session, pool) ∧ Answers keeps step' view answer) :
    Answers keeps step view answer := by
  intro session pool hkeeps
  obtain ⟨step', hrun, hstep'⟩ := h session pool hkeeps
  rw [hrun]
  exact hstep' session pool hkeeps

/-- A recorded step leaves the pool alone. -/
theorem answers_pooled {step : Recorded α} {view : α → β} {answer : Except Failure β}
    (h : ∀ session, (step.run session).1.map view = answer.mapError .notReady) :
    Answers keeps step.pooled view answer :=
  fun session pool hkeeps => ⟨_, _, pool, rfl, hkeeps, h session⟩

theorem answers_remember {change : Pool → Pool} (h : ∀ pool, keeps pool → keeps (change pool)) :
    Answers keeps (Pool.remember change) id (.ok ()) :=
  fun session pool hkeeps => ⟨.ok (), session, change pool, rfl, h pool hkeeps, rfl⟩

end Pooled

/-! ## Recorded steps -/

namespace Recorded

theorem run_note_bind (event : Event) (f : Unit → Recorded α) (session : Session) :
    (note event >>= f).run session = (f ()).run { session with events := event :: session.events } :=
  rfl

theorem run_warnOnce_bind (l : Language) (pattern detail : String) (f : Unit → Recorded α)
    (session : Session) :
    ∃ session', (warnOnce l pattern detail >>= f).run session = (f ()).run session' :=
  ⟨_, rfl⟩

theorem note_result (event : Event) (session : Session) :
    ((note event).run session).1.map id = (Except.ok () : Except Failure Unit).mapError .notReady :=
  rfl

theorem fresh_result (session : Session) :
    (fresh.run session).1.map (fun _ => ()) =
      (Except.ok () : Except Failure Unit).mapError .notReady :=
  rfl

theorem loadGrammar_result (grammars : Grammars) (l : Language) (session : Session) :
    ((loadGrammar grammars l).run session).1.map id = (load grammars l).mapError .notReady := by
  rw [loadGrammar, run_note_bind]
  cases load grammars l <;> rfl

/-- Of pattern texts those that the grammar accepts are left. -/
theorem compileEach_result (l : Language) (g : Grammar) (patterns : List String)
    (session : Session) :
    ((compileEach l g patterns).run session).1 =
      .ok (patterns.filter fun p => (g.patternFault p).isNone) := by
  induction patterns generalizing session with
  | nil => rfl
  | cons pattern rest ih =>
      rw [compileEach, run_note_bind, List.filter_cons]
      cases hfault : g.patternFault pattern with
      | none =>
          dsimp only
          rw [run_bind_state]
          rcases hrun : (compileEach l g rest).run _ with ⟨result, session'⟩
          obtain rfl : result = _ := (congrArg Prod.fst hrun).symm.trans (ih _)
          rfl
      | some detail =>
          dsimp only
          obtain ⟨session', hrun⟩ := run_warnOnce_bind l pattern detail
            (fun _ => compileEach l g rest) { session with events := _ :: session.events }
          rw [hrun, ih]
          rfl

/-- The patterns of a language compile as the grammar accepts them. -/
theorem compileAll_result (l : Language) (g : Grammar) (session : Session) :
    ((compileAll l g).run session).1.map Prod.snd = (compile l g).mapError .notReady := by
  rw [compileAll, run_bind_state]
  rcases hrun : (compileEach l g (trimPatterns l.patterns)).run session with ⟨result, session'⟩
  obtain rfl : result = .ok (g.accepted l.patterns) :=
    (congrArg Prod.fst hrun).symm.trans (compileEach_result l g _ session)
  rw [compile]
  cases g.accepted l.patterns with
  | nil => rfl
  | cons pattern rest =>
      show ((do
        let blocks ← compileEach l g (trimPatterns l.blockPatterns)
        return (← fresh, (⟨pattern :: rest, blocks⟩ : Patterns)) : Recorded _).run session').1.map
          Prod.snd = _
      rw [run_bind_state]
      rcases hrun : (compileEach l g (trimPatterns l.blockPatterns)).run session' with ⟨result, _⟩
      obtain rfl : result = .ok (g.accepted l.blockPatterns) :=
        (congrArg Prod.fst hrun).symm.trans (compileEach_result l g _ session')
      rfl

end Recorded

/-! ## What a pool remembers -/

/-- Languages with one name are one language. -/
def NamedApart (languages : List Language) : Prop :=
  ∀ l ∈ languages, ∀ m ∈ languages, l.name = m.name → l = m

namespace Pool

/-- The pool of a worker remembers of languages what would be made anew. -/
structure Sound (grammars : Grammars) (languages : List Language) (worker : Nat) (p : Pool) :
    Prop where
  owner_eq : p.owner = worker
  grammar_eq : ∀ l ∈ languages, ∀ g, p.grammars.lookup l.name = some g → load grammars l = .ok g
  built : ∀ l ∈ languages, ∀ parser, p.parsers.lookup l.name = some parser →
    (load grammars l >>= buildParser l) = .ok ()
  compiled : ∀ l ∈ languages, ∀ number patterns,
    p.patterns.lookup l.name = some (number, patterns) →
      (load grammars l >>= compile l) = .ok patterns

variable {grammars : Grammars} {languages : List Language} {worker : Nat}

/-- A new pool remembers nothing. -/
theorem sound_new : Sound grammars languages worker { owner := worker } where
  owner_eq := rfl
  grammar_eq _ _ _ h := by cases h
  built _ _ _ h := by cases h
  compiled _ _ _ _ h := by cases h

/-- A name that is looked up in a list with a new entry leads to the entry or to what was there. -/
theorem lookup_cons_cases {v : α} {entries : List (String × α)} {name key : String} {found : α}
    (h : List.lookup key ((name, v) :: entries) = some found) :
    key = name ∧ found = v ∨ entries.lookup key = some found := by
  rw [List.lookup_cons] at h
  cases hkey : key == name with
  | true =>
      rw [hkey] at h
      exact .inl ⟨beq_iff_eq.mp hkey, (Option.some.inj h).symm⟩
  | false =>
      rw [hkey] at h
      exact .inr h

theorem Sound.remember_grammar (hnames : NamedApart languages) {l : Language} (hl : l ∈ languages)
    {g : Grammar} (hg : load grammars l = .ok g) {p : Pool} (h : Sound grammars languages worker p) :
    Sound grammars languages worker { p with grammars := (l.name, g) :: p.grammars } where
  owner_eq := h.owner_eq
  grammar_eq m hm g' hfound := by
    rcases lookup_cons_cases hfound with ⟨hname, rfl⟩ | hfound
    · rwa [hnames m hm l hl hname]
    · exact h.grammar_eq m hm g' hfound
  built := h.built
  compiled := h.compiled

theorem Sound.remember_parser (hnames : NamedApart languages) {l : Language} (hl : l ∈ languages)
    {parser : Nat} (hbuilt : (load grammars l >>= buildParser l) = .ok ()) {p : Pool}
    (h : Sound grammars languages worker p) :
    Sound grammars languages worker { p with parsers := (l.name, parser) :: p.parsers } where
  owner_eq := h.owner_eq
  grammar_eq := h.grammar_eq
  built m hm parser' hfound := by
    rcases lookup_cons_cases hfound with ⟨hname, -⟩ | hfound
    · rwa [hnames m hm l hl hname]
    · exact h.built m hm parser' hfound
  compiled := h.compiled

theorem Sound.remember_patterns (hnames : NamedApart languages) {l : Language} (hl : l ∈ languages)
    {made : Nat × Patterns} (hcompiled : (load grammars l >>= compile l) = .ok made.2) {p : Pool}
    (h : Sound grammars languages worker p) :
    Sound grammars languages worker { p with patterns := (l.name, made) :: p.patterns } where
  owner_eq := h.owner_eq
  grammar_eq := h.grammar_eq
  built := h.built
  compiled m hm number patterns hfound := by
    rcases lookup_cons_cases hfound with ⟨hname, rfl⟩ | hfound
    · rwa [hnames m hm l hl hname]
    · exact h.compiled m hm number patterns hfound

/-! ## What a pool answers -/

open Pooled (Answers run_get_bind answers_pure answers_throw answers_pooled answers_remember)

/-- The owner of a pool may use it. -/
theorem checkOwner_answers :
    Answers (Sound grammars languages worker) (checkOwner worker) id (.ok ()) := by
  refine .of_run_eq fun session p hsound => ?_
  rw [checkOwner, run_get_bind]
  dsimp only
  rw [if_pos (beq_iff_eq.mpr hsound.owner_eq)]
  exact ⟨_, rfl, answers_pure () id⟩

/-- The pool gives the grammar of a language. -/
theorem grammar_answers (hnames : NamedApart languages) {l : Language} (hl : l ∈ languages) :
    Answers (Sound grammars languages worker) (grammar grammars l) id (load grammars l) := by
  refine .of_run_eq fun session p hsound => ?_
  rw [grammar, run_get_bind]
  dsimp only
  cases hlookup : p.grammars.lookup l.name with
  | some g =>
      refine ⟨_, rfl, ?_⟩
      rw [hsound.grammar_eq l hl g hlookup]
      exact answers_pure g id
  | none =>
      refine ⟨_, rfl, ?_⟩
      rw [← bind_pure (load grammars l)]
      refine (answers_pooled (Recorded.loadGrammar_result grammars l)).bind fun g hg => ?_
      exact (answers_remember fun p hp => hp.remember_grammar hnames hl hg).before
        fun _ => answers_pure g id

/-- The pool has a parser for a language exactly if one can be built. -/
theorem acquire_answers (hnames : NamedApart languages) {l : Language} (hl : l ∈ languages) :
    Answers (Sound grammars languages worker) (acquire grammars worker l) (fun _ => ())
      (load grammars l >>= buildParser l) := by
  refine checkOwner_answers.before fun _ => .of_run_eq fun session p hsound => ?_
  rw [run_get_bind]
  dsimp only
  cases hlookup : p.parsers.lookup l.name with
  | some parser =>
      refine ⟨_, rfl, ?_⟩
      rw [hsound.built l hl parser hlookup]
      exact answers_pure parser fun _ => ()
  | none =>
      refine ⟨_, rfl, (grammar_answers hnames hl).bind fun g hg => ?_⟩
      refine (answers_pooled (Recorded.note_result _)).before fun _ => ?_
      dsimp only [id]
      cases hbuild : buildParser l g with
      | error failure => exact answers_throw failure fun _ => ()
      | ok _ =>
          refine (answers_pooled Recorded.fresh_result).before fun parser => ?_
          refine (answers_remember fun p hp => hp.remember_parser hnames hl ?_).before
            fun _ => answers_pure parser fun _ => ()
          rw [hg]
          exact hbuild

/-- The pool has the patterns of a language as its grammar accepts them. -/
theorem queries_answers (hnames : NamedApart languages) {l : Language} (hl : l ∈ languages) :
    Answers (Sound grammars languages worker) (queries grammars worker l) Prod.snd
      (load grammars l >>= compile l) := by
  refine checkOwner_answers.before fun _ => .of_run_eq fun session p hsound => ?_
  rw [run_get_bind]
  dsimp only
  cases hlookup : p.patterns.lookup l.name with
  | some made =>
      refine ⟨_, rfl, ?_⟩
      rw [hsound.compiled l hl made.1 made.2 hlookup]
      exact answers_pure made Prod.snd
  | none =>
      refine ⟨_, rfl, (grammar_answers hnames hl).bind fun g hg => ?_⟩
      show Answers _ _ _ (compile l g)
      rw [← bind_pure (compile l g)]
      refine (answers_pooled (Recorded.compileAll_result l g)).bind fun made hmade => ?_
      refine (answers_remember fun p hp => hp.remember_patterns hnames hl ?_).before
        fun _ => answers_pure made Prod.snd
      rw [hg]
      exact hmade

/-- Making a language ready is building its parser and then compiling its patterns. -/
theorem prepare_eq (grammars : Grammars) (l : Language) :
    prepare grammars l =
      (load grammars l >>= buildParser l) >>= fun _ => load grammars l >>= compile l := by
  rw [prepare]
  cases load grammars l with
  | error failure => rfl
  | ok g => rfl

/-- A content that is parsed before the patterns are asked for gets them if the language is ready. -/
theorem parse_queries_answers (hnames : NamedApart languages) {l : Language} (hl : l ∈ languages)
    (content : String) :
    Answers (Sound grammars languages worker)
      (parse grammars worker l content >>= fun _ => queries grammars worker l) Prod.snd
      (prepare grammars l) := by
  rw [prepare_eq, parse, bind_assoc]
  refine (acquire_answers hnames hl).bind fun parser _ => ?_
  rw [bind_assoc]
  refine (answers_pooled (Recorded.note_result _)).before fun _ => ?_
  exact (answers_pooled (Recorded.note_result _)).before fun _ => queries_answers hnames hl

theorem mapM_prepare_cons (grammars : Grammars) (l : Language) (rest : List Language) :
    (((l :: rest).mapM (prepare grammars)).map fun _ => ()) =
      prepare grammars l >>= fun _ => (rest.mapM (prepare grammars)).map fun _ => () := by
  rw [List.mapM_cons]
  cases prepare grammars l with
  | error failure => rfl
  | ok patterns => cases rest.mapM (prepare grammars) <;> rfl

/-- Languages that are made ready fail with the first of them that is not. -/
theorem preload_answers (hnames : NamedApart languages) {wanted : List Language}
    (hwanted : ∀ l ∈ wanted, l ∈ languages) :
    Answers (Sound grammars languages worker) (preload grammars worker wanted) id
      ((wanted.mapM (prepare grammars)).map fun _ => ()) := by
  induction wanted with
  | nil => exact answers_pure () id
  | cons l rest ih =>
      obtain ⟨hl, hrest⟩ := List.forall_mem_cons.mp hwanted
      rw [mapM_prepare_cons, prepare_eq, bind_assoc, preload]
      refine (acquire_answers hnames hl).bind fun _ _ => ?_
      exact (queries_answers hnames hl).bind fun _ _ => ih hrest

end Pool

/-! ## Checking languages -/

variable {grammars : Grammars} {languages wanted : List Language}

/-- **Languages are checked** as if each were made ready on its own, one after another. -/
theorem validate_eq (hnames : NamedApart languages) (hwanted : ∀ l ∈ wanted, l ∈ languages) :
    (validate grammars wanted).1 =
      ((wanted.mapM (prepare grammars)).map fun _ => ()).mapError .notReady := by
  obtain ⟨result, session, pool, hrun, -, hresult⟩ :=
    Pool.preload_answers hnames hwanted {} { owner := 0 } Pool.sound_new
  have hsame : (validate grammars wanted).1 = result := congrArg Prod.fst hrun
  rw [hsame, ← hresult]
  cases result <;> rfl

theorem validate_eq_ok_iff (hnames : NamedApart languages) (hwanted : ∀ l ∈ wanted, l ∈ languages) :
    (validate grammars wanted).1 = .ok () ↔
      ∀ l ∈ wanted, ∃ patterns, prepare grammars l = .ok patterns := by
  rw [validate_eq hnames hwanted, mapError_eq_ok_iff, map_eq_ok_iff]
  constructor
  · rintro ⟨results, hresults, -⟩ l hl
    obtain ⟨patterns, -, hprepare⟩ := exists_mem_of_mapM hresults hl
    exact ⟨patterns, hprepare⟩
  · intro hready
    obtain ⟨results, hresults⟩ := exists_mapM_eq_ok hready
    exact ⟨results, hresults, rfl⟩

/-- A check that fails gives the failure of one of the languages. -/
theorem exists_of_validate_eq_error (hnames : NamedApart languages)
    (hwanted : ∀ l ∈ wanted, l ∈ languages) {fault : PoolFault}
    (h : (validate grammars wanted).1 = .error fault) :
    ∃ l ∈ wanted, ∃ failure, prepare grammars l = .error failure ∧ fault = .notReady failure := by
  have hfault : faultOf (validate grammars wanted).1 = some fault := faultOf_eq_some_iff.mpr h
  rw [validate_eq hnames hwanted, faultOf_mapError, faultOf_map, faultOf_mapM,
    Option.map_eq_some_iff] at hfault
  obtain ⟨failure, hfailure, rfl⟩ := hfault
  obtain ⟨l, hl, hprepare⟩ := List.exists_of_findSome?_eq_some hfailure
  exact ⟨l, hl, failure, faultOf_eq_some_iff.mp hprepare, rfl⟩

end CodeChallenges.Grammar

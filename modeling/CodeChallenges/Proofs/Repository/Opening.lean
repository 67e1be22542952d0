import CodeChallenges.Proofs.Glob.BadRange
import CodeChallenges.Proofs.Repository.Scan
/-!
# Which faults opening a repository has

A scanner over a directory is there or it is refused, with one of few faults and for one reason each
(`faultOf_open`).  Of globs the first one with a fault counts.  A glob that is invalid is refused as
such, and an ignore file with an invalid line is ignored with a warning.  The odd one out is a class
with a reversed range: it is a fault of another kind, which passes through both unnoticed
(`open_isReported_iff`).
-/

namespace CodeChallenges

/-! ## Faults of globs -/

/-- The first fault among texts of globs. -/
def Glob.firstFault (d : Glob.Dialect) (patterns : List String) : Option Glob.Fault :=
  patterns.findSome? fun pattern => faultOf (Glob.ofPattern d pattern)

/-- A text among others has the first fault. -/
theorem Glob.exists_of_firstFault {d : Glob.Dialect} {patterns : List String} {fault : Glob.Fault}
    (h : Glob.firstFault d patterns = some fault) :
    ∃ pattern ∈ patterns, faultOf (Glob.ofPattern d pattern) = some fault :=
  List.exists_of_findSome?_eq_some h

/-- The texts of a list that are not blank, without blanks around them. -/
def GlobList.texts (patterns : List String) : List String :=
  (patterns.map Text.trimmed).filter (· != "")

theorem GlobList.faultOf_compile (patterns : List String) :
    faultOf (compile patterns) = Glob.firstFault .plain (texts patterns) := by
  have hlist : ∀ texts, faultOf (ofPatterns texts) = Glob.firstFault .plain texts := by
    intro texts
    rw [ofPatterns, faultOf_bind_of_none fun globs => rfl, faultOf_mapM]
    rfl
  unfold compile
  split
  · rename_i hnone
    rw [texts, hnone]
    rfl
  · rw [faultOf_map, hlist]
    rfl

theorem IgnoreList.faultOf_ofLines (lines : List String) :
    faultOf (ofLines lines) = Glob.firstFault .ignoreFile lines := by
  rw [ofLines, faultOf_bind_of_none fun globs => rfl, faultOf_mapM]
  rfl

namespace Repository

/-! ## The faults, step by step -/

/-- The fault of opening that a fault of a glob is. -/
def OpenFault.ofGlob : Glob.Fault → OpenFault
  | .invalid pattern => .invalidGlob (.invalid pattern)
  | .badRange range written => .badGlobRange (.badRange range written)

theorem faultOf_compileGlobs (patterns : List String) :
    faultOf (compileGlobs patterns) =
      (Glob.firstFault .plain (GlobList.texts patterns)).map OpenFault.ofGlob := by
  rw [compileGlobs, faultOf_mapError, GlobList.faultOf_compile]
  congr 1
  funext fault
  cases fault <;> rfl

/-- The texts of the globs that options ask for: first those that leave out, then those that
include. -/
def globTexts (o : Options) : List String :=
  GlobList.texts ((if o.useDefaultExcludes then defaultExcludes else []) ++ o.excludes) ++
    GlobList.texts o.includes

/-- The first fault among the globs that options ask for. -/
def globFault (o : Options) : Option Glob.Fault :=
  Glob.firstFault .plain (globTexts o)

/-- The lines of the ignore file of a root; none if there is none or it is no text. -/
def ignoreLines (s : Snapshot) (root : Place) : List String :=
  match s.read? root ignoreFileName with
  | none => []
  | some content =>
    match Text.Utf8.decode content with
    | .error _ => []
    | .ok text => (Text.lines text).map String.ofList

/-- The first fault among the lines of the ignore file. -/
def ignoreFault (s : Snapshot) (root : Place) : Option Glob.Fault :=
  Glob.firstFault .ignoreFile (ignoreLines s root)

/-- The fault of opening that a fault in the ignore file is; an invalid line is none. -/
def OpenFault.ofIgnored : Glob.Fault → Option OpenFault
  | .invalid _ => none
  | .badRange range written => some (.badGlobRange (.badRange range written))

theorem faultOf_ignoreListOf (path : String) {content : List UInt8} {text : List Char}
    (h : Text.Utf8.decode content = .ok text) :
    faultOf (ignoreListOf path content) =
      (Glob.firstFault .ignoreFile ((Text.lines text).map String.ofList)).bind
        OpenFault.ofIgnored := by
  rw [ignoreListOf, h, ← IgnoreList.faultOf_ofLines]
  dsimp only
  cases IgnoreList.ofLines ((Text.lines text).map String.ofList) with
  | ok list => rfl
  | error fault => cases fault <;> rfl

theorem faultOf_readIgnoreFile (s : Snapshot) (root : Place) :
    faultOf (readIgnoreFile s root) =
      (faultOf (checkEntry s root ignoreFileName)).or
        ((ignoreFault s root).bind OpenFault.ofIgnored) := by
  refine faultOf_bind fun _ _ => ?_
  rw [ignoreFault, ignoreLines]
  cases s.read? root ignoreFileName with
  | none => rfl
  | some content =>
      dsimp only
      cases hdecode : Text.Utf8.decode content with
      | error e =>
          rw [ignoreListOf, hdecode]
          rfl
      | ok text => exact faultOf_ignoreListOf _ hdecode

/-- **The fault of opening** a directory: that of the first faulty glob, or else one from the ignore
file, or else that the mark of a work tree cannot be asked about. -/
theorem faultOf_open {w : World} {root : String} {place : Place} (o : Options)
    (useGit : Option Bool) (hroot : openRoot w root = .ok place) :
    faultOf (Scanner.open w root o useGit) =
      ((globFault o).map OpenFault.ofGlob).or
        (((faultOf (checkEntry w.snapshot place ignoreFileName)).or
          ((ignoreFault w.snapshot place).bind OpenFault.ofIgnored)).or
          (if useGit = none then faultOf (checkEntry w.snapshot place workTreeMark) else none)) := by
  have hglobs : (globFault o).map OpenFault.ofGlob =
      (faultOf (excludeGlobs o)).or (faultOf (compileGlobs o.includes)) := by
    rw [excludeGlobs, faultOf_compileGlobs, faultOf_compileGlobs, ← Option.map_or, globFault,
      globTexts, Glob.firstFault, List.findSome?_append]
    rfl
  rw [hglobs, Option.or_assoc, Scanner.open, hroot]
  show faultOf (excludeGlobs o >>= fun excludes => _) = _
  refine faultOf_bind fun excludes _ => faultOf_bind fun includes _ => ?_
  rw [← faultOf_readIgnoreFile]
  refine faultOf_bind fun read _ => ?_
  cases useGit with
  | some choice => rfl
  | none =>
      show faultOf (prefersGit w place >>= fun usesGit => _) = _
      rw [faultOf_bind_of_none fun usesGit => rfl, if_pos rfl, prefersGit,
        faultOf_bind_of_none fun _ => rfl]

/-! ## Which of them are reported -/

/-- The faults that are reported as faults of the extraction. -/
def OpenFault.IsReported : OpenFault → Prop
  | .notDirectory _ => True
  | .invalidGlob _ => True
  | _ => False

/-- Nothing but an invalid glob can keep a scanner from being opened: the first faulty glob has no bad
range, nor has the first faulty line of the ignore file, and the entries of the root can be asked
about. -/
structure Unhindered (w : World) (place : Place) (o : Options) (useGit : Option Bool) : Prop where
  globs : ∀ range written, globFault o ≠ some (.badRange range written)
  ignoreFile : globFault o = none → w.snapshot.isTooLong place ignoreFileName = false
  ignoreLines : globFault o = none →
    ∀ range written, ignoreFault w.snapshot place ≠ some (.badRange range written)
  workTree : globFault o = none → useGit = none → w.snapshot.isTooLong place workTreeMark = false

theorem faultOf_checkEntry_eq_none_iff {s : Snapshot} {root : Place} {name : String} :
    faultOf (checkEntry s root name) = none ↔ s.isTooLong root name = false := by
  unfold checkEntry
  split
  · rename_i hlong
    simp [faultOf, hlong]
  · rename_i hlong
    simp [faultOf, hlong]

theorem not_isReported_of_checkEntry {s : Snapshot} {root : Place} {name : String}
    {fault : OpenFault} (h : faultOf (checkEntry s root name) = some fault) :
    ¬ fault.IsReported := by
  unfold checkEntry at h
  split at h
  · cases h
    exact not_false
  · cases h

theorem bind_ofIgnored_eq_none_iff {fault : Option Glob.Fault} :
    fault.bind OpenFault.ofIgnored = none ↔
      ∀ range written, fault ≠ some (.badRange range written) := by
  rcases fault with - | ⟨pattern | ⟨range, written⟩⟩
  · simp
  · simp [OpenFault.ofIgnored]
  · simp [OpenFault.ofIgnored]

theorem not_isReported_of_ofIgnored {fault : Glob.Fault} {opening : OpenFault}
    (h : OpenFault.ofIgnored fault = some opening) : ¬ opening.IsReported := by
  cases fault with
  | invalid pattern => cases h
  | badRange range written =>
      cases h
      exact not_false

section Open

variable {w : World} {root : String} {place : Place} {o : Options} {useGit : Option Bool}

/-- A fault of opening after the globs is not reported. -/
theorem not_isReported_of_faultOf_open (hroot : openRoot w root = .ok place)
    (hglobs : globFault o = none) {fault : OpenFault}
    (h : Scanner.open w root o useGit = .error fault) : ¬ fault.IsReported := by
  rw [← faultOf_eq_some_iff, faultOf_open o useGit hroot, hglobs, Option.map_none,
    Option.none_or] at h
  rcases Option.or_eq_some_iff.mp h with h | ⟨-, h⟩
  · rcases Option.or_eq_some_iff.mp h with h | ⟨-, h⟩
    · exact not_isReported_of_checkEntry h
    · obtain ⟨ignored, -, h⟩ := Option.bind_eq_some_iff.mp h
      exact not_isReported_of_ofIgnored h
  · split at h
    · exact not_isReported_of_checkEntry h
    · cases h

theorem reports_iff_unhindered (hroot : openRoot w root = .ok place) :
    (∀ fault, Scanner.open w root o useGit = .error fault → fault.IsReported) ↔
      Unhindered w place o useGit := by
  have hopen := faultOf_open o useGit hroot
  cases hglobs : globFault o with
  | some fault =>
      rw [hglobs, Option.map_some, Option.some_or, faultOf_eq_some_iff] at hopen
      rw [hopen]
      cases fault with
      | invalid pattern =>
          refine iff_of_true ?_ ⟨?_, ?_, ?_, ?_⟩
          · intro fault heq
            cases heq
            exact trivial
          · simp [hglobs]
          · simp [hglobs]
          · simp [hglobs]
          · simp [hglobs]
      | badRange range written =>
          refine iff_of_false ?_ ?_
          · intro h
            exact h _ rfl
          · intro h
            exact h.globs range written hglobs
  | none =>
      have hnone : (∀ fault, Scanner.open w root o useGit = .error fault → fault.IsReported) ↔
          faultOf (Scanner.open w root o useGit) = none := by
        rw [Option.eq_none_iff_forall_ne_some]
        refine forall_congr' fun fault => ?_
        rw [ne_eq, faultOf_eq_some_iff]
        constructor
        · intro h heq
          exact not_isReported_of_faultOf_open hroot hglobs heq (h heq)
        · intro h heq
          exact absurd heq h
      rw [hnone, hopen, hglobs, Option.map_none, Option.none_or, Option.or_eq_none_iff,
        Option.or_eq_none_iff, faultOf_checkEntry_eq_none_iff, bind_ofIgnored_eq_none_iff,
        ite_eq_right_iff, faultOf_checkEntry_eq_none_iff]
      constructor
      · rintro ⟨⟨hfile, hlines⟩, hmark⟩
        exact ⟨by simp [hglobs], fun _ => hfile, fun _ => hlines, fun _ => hmark⟩
      · intro h
        exact ⟨⟨h.ignoreFile hglobs, h.ignoreLines hglobs⟩, h.workTree hglobs⟩

/-! ## The ignore file -/

/-- The content of an ignore file is at fault: it is no text, or its first faulty line is invalid. -/
def IsMalformed (content : List UInt8) : Prop :=
  (∃ e, Text.Utf8.decode content = .error e) ∨
    ∃ text pattern, Text.Utf8.decode content = .ok text ∧
      Glob.firstFault .ignoreFile ((Text.lines text).map String.ofList) = some (.invalid pattern)

/-- A malformed ignore file is ignored with one warning. -/
theorem ignoreListOf_of_malformed (path : String) {content : List UInt8}
    (h : IsMalformed content) : ∃ text, ignoreListOf path content = .ok (none, [warning text]) := by
  rcases h with ⟨e, hdecode⟩ | ⟨text, pattern, hdecode, hfault⟩
  · refine ⟨s!"Could not read {path}: {e.message}", ?_⟩
    rw [ignoreListOf, hdecode]
  · refine ⟨s!"Ignoring {path}: {(Glob.Fault.invalid pattern).message}", ?_⟩
    rw [← IgnoreList.faultOf_ofLines, faultOf_eq_some_iff] at hfault
    rw [ignoreListOf, hdecode]
    dsimp only
    rw [hfault]

/-- A malformed ignore file never keeps a scanner from being opened. -/
theorem ignoreFault_of_malformed {s : Snapshot} {content : List UInt8}
    (hread : s.read? place ignoreFileName = some content) (h : IsMalformed content)
    (range : Glob.BadRange) (written : List Char) :
    ignoreFault s place ≠ some (.badRange range written) := by
  rw [ignoreFault, ignoreLines, hread]
  dsimp only
  rcases h with ⟨e, hdecode⟩ | ⟨text, pattern, hdecode, hfault⟩
  · rw [hdecode]
    nofun
  · rw [hdecode]
    dsimp only
    rw [hfault]
    nofun

theorem isTooLong_of_read {s : Snapshot} {name : String} {content : List UInt8}
    (h : s.read? place name = some content) : s.isTooLong place name = false := by
  unfold Snapshot.read? at h
  unfold Snapshot.isTooLong
  split at h
  · cases h
  · rename_i found hfound
    rw [hfound]

/-- A directory with good globs and a malformed ignore file is opened, with one warning and nothing
to ignore. -/
theorem open_of_malformed {content : List UInt8} (hroot : openRoot w root = .ok place)
    (hglobs : globFault o = none)
    (hmark : useGit = none → w.snapshot.isTooLong place workTreeMark = false)
    (hread : w.snapshot.read? place ignoreFileName = some content) (h : IsMalformed content) :
    ∃ scanner text, Scanner.open w root o useGit = .ok (scanner, [warning text]) ∧
      scanner.ignored = none := by
  have hnone : faultOf (Scanner.open w root o useGit) = none := by
    rw [faultOf_open o useGit hroot, hglobs, Option.map_none, Option.none_or,
      faultOf_checkEntry_eq_none_iff.mpr (isTooLong_of_read hread),
      bind_ofIgnored_eq_none_iff.mpr (ignoreFault_of_malformed hread h), Option.none_or,
      Option.none_or, ite_eq_right_iff]
    intro hasks
    exact faultOf_checkEntry_eq_none_iff.mpr (hmark hasks)
  obtain ⟨⟨scanner, warnings⟩, hopen⟩ := faultOf_eq_none_iff.mp hnone
  obtain ⟨hplace, -, -, hignored⟩ := Scanner.open_eq_ok hopen
  rw [← Except.ok.inj (hroot.symm.trans hplace)] at hignored
  obtain ⟨-, -, hignored⟩ := bind_eq_ok_iff.mp hignored
  rw [hread] at hignored
  obtain ⟨text, htext⟩ := ignoreListOf_of_malformed (Place.text (place ++ [ignoreFileName])) h
  dsimp only at hignored
  rw [htext] at hignored
  obtain ⟨hignores, hwarns⟩ := Prod.mk.inj (Except.ok.inj hignored)
  exact ⟨scanner, text, by rw [hopen, hwarns], hignores.symm⟩

/-- A reported fault of opening a directory is that of its first faulty glob, an invalid one. -/
theorem open_eq_reported_iff (hroot : openRoot w root = .ok place) {fault : OpenFault}
    (hreported : fault.IsReported) :
    Scanner.open w root o useGit = .error fault ↔
      ∃ pattern, globFault o = some (.invalid pattern) ∧
        fault = .invalidGlob (.invalid pattern) := by
  have hopen := faultOf_open o useGit hroot
  cases hglobs : globFault o with
  | none =>
      refine iff_of_false ?_ (by simp)
      intro h
      exact not_isReported_of_faultOf_open hroot hglobs h hreported
  | some glob =>
      rw [hglobs, Option.map_some, Option.some_or, faultOf_eq_some_iff] at hopen
      rw [hopen]
      cases glob with
      | invalid pattern =>
          constructor
          · intro heq
            exact ⟨pattern, rfl, (Except.error.inj heq).symm⟩
          · rintro ⟨pattern', heq, rfl⟩
            cases heq
            rfl
      | badRange range written =>
          refine iff_of_false ?_ (by simp)
          intro heq
          cases heq
          exact hreported

/-- **Which faults opening a directory has.**  Every fault is reported exactly if no reversed range
and no overlong name stands in the way; the reported fault is that of the first faulty glob, and with
good globs a malformed ignore file is only warned about.  A reversed range is one that the texts
hold. -/
theorem open_isReported_iff (hroot : openRoot w root = .ok place) :
    ((∀ fault, Scanner.open w root o useGit = .error fault → fault.IsReported) ↔
      Unhindered w place o useGit) ∧
    (∀ fault, fault.IsReported → (Scanner.open w root o useGit = .error fault ↔
      ∃ pattern, globFault o = some (.invalid pattern) ∧
        fault = .invalidGlob (.invalid pattern))) ∧
    (∀ content, w.snapshot.read? place ignoreFileName = some content → IsMalformed content →
      globFault o = none → (useGit = none → w.snapshot.isTooLong place workTreeMark = false) →
      ∃ scanner text, Scanner.open w root o useGit = .ok (scanner, [warning text]) ∧
        scanner.ignored = none) ∧
    ∀ range written,
      (globFault o = some (.badRange range written) →
        ∃ text ∈ globTexts o, range.WrittenIn text.toList) ∧
      (ignoreFault w.snapshot place = some (.badRange range written) →
        ∃ line ∈ ignoreLines w.snapshot place, range.WrittenIn line.toList) := by
  refine ⟨reports_iff_unhindered hroot, fun fault => open_eq_reported_iff hroot, ?_, ?_⟩
  · intro content hread hmalformed hglobs hmark
    exact open_of_malformed hroot hglobs hmark hread hmalformed
  · intro range written
    constructor
    · intro hglobs
      obtain ⟨text, htext, hfault⟩ := Glob.exists_of_firstFault hglobs
      exact ⟨text, htext, Glob.writtenIn_of_ofPattern hfault⟩
    · intro hignore
      obtain ⟨line, hline, hfault⟩ := Glob.exists_of_firstFault hignore
      exact ⟨line, hline, Glob.writtenIn_of_ofPattern hfault⟩

end Open

/-! ## A reversed range -/

open Scanner (sampleWorld sampleOptions sample_openRoot)

/-- The small repository is refused for an exclude glob with a reversed range, with a fault that is
not reported. -/
theorem reversed_range_not_reported : ∃ fault,
    Scanner.open sampleWorld "/r" (sampleOptions ["[z-a]"]) none = .error fault ∧
      ¬ fault.IsReported ∧ fault.message = "bad character range z-a at position 10" := by
  have hread : Glob.readBody .plain "[z-a]" "[z-a]".toList =
      .ok (some [.startDirs, .charClass false ['z', '-', 'a'], .nameEnd]) := by cbv
  have hregex : Glob.regexFrom 0 [.startDirs, .charClass false ['z', '-', 'a'], .nameEnd] =
      .error ⟨'z', 'a', 10⟩ := rfl
  have hpattern : faultOf (Glob.ofPattern .plain "[z-a]") = some (.badRange ⟨'z', 'a', 10⟩
      (Glob.writtenForm [.startDirs, .charClass false ['z', '-', 'a'], .nameEnd])) := by
    have htext : Glob.withoutTrailingBlanks "[z-a]".toList = "[z-a]".toList := by decide
    have hsays : Glob.saysNothing .plain "[z-a]".toList = false := by decide
    have hsign : ("[z-a]".toList.head? != some '!') = true := by decide
    rw [Glob.ofPattern, htext, hsays, if_neg Bool.false_ne_true]
    dsimp only
    rw [hsign, if_pos rfl, hread]
    rfl
  have htexts : globTexts (sampleOptions ["[z-a]"]) = ["[z-a]"] := by decide
  have hglobs : globFault (sampleOptions ["[z-a]"]) = some (.badRange ⟨'z', 'a', 10⟩
      (Glob.writtenForm [.startDirs, .charClass false ['z', '-', 'a'], .nameEnd])) := by
    rw [globFault, htexts, Glob.firstFault, List.findSome?_cons, hpattern]
  have hopen := faultOf_open (sampleOptions ["[z-a]"]) none sample_openRoot
  rw [hglobs, Option.map_some, Option.some_or, faultOf_eq_some_iff] at hopen
  exact ⟨_, hopen, not_false, by decide⟩

/-- The small repository is refused for a lone backslash, and that is reported. -/
theorem open_isReported_sample :
    openRoot sampleWorld "/r" = .ok ["r"] ∧
    ((∀ fault, Scanner.open sampleWorld "/r" (sampleOptions ["\\"]) none = .error fault →
      fault.IsReported) ↔ Unhindered sampleWorld ["r"] (sampleOptions ["\\"]) none) ∧
    Scanner.open sampleWorld "/r" (sampleOptions ["\\"]) none =
      .error (.invalidGlob (.invalid "\\")) := by
  have hpattern : faultOf (Glob.ofPattern .plain "\\") = some (.invalid "\\") := by cbv
  have htexts : globTexts (sampleOptions ["\\"]) = ["\\"] := by decide
  have hglobs : globFault (sampleOptions ["\\"]) = some (.invalid "\\") := by
    rw [globFault, htexts, Glob.firstFault, List.findSome?_cons, hpattern]
  obtain ⟨hreports, hreported, -, -⟩ :=
    @open_isReported_iff sampleWorld "/r" ["r"] (sampleOptions ["\\"]) none sample_openRoot
  exact ⟨sample_openRoot, hreports, (hreported (.invalidGlob _) trivial).mpr ⟨"\\", hglobs, rfl⟩⟩

end Repository

end CodeChallenges

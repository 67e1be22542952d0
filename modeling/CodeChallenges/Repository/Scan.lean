import CodeChallenges.Glob.Pattern
import CodeChallenges.Log
import CodeChallenges.Registry
import CodeChallenges.Repository.DefaultExcludes
import CodeChallenges.Repository.Git
import CodeChallenges.Repository.Snapshot
import CodeChallenges.Text.Utf8
/-!
Choosing the files of a repository.  Candidates are listed by git where the root is a work tree, and
else by walking the directories; globs and the ignore file leave candidates out, and the extension
decides the language.  Files come in ascending order of their paths.
-/

namespace CodeChallenges.Repository

/-- What git would answer. -/
structure GitService where
  installed : Bool
  listing : Git.Reply
  binaryMark : String → Git.Reply

/-- Where a run takes place. -/
structure World where
  snapshot : Snapshot
  workingDirectory : Place
  home : String
  git : GitService

/-- The name of the ignore file in the root. -/
def ignoreFileName : String := ".gittypeignore"

/-- Directories that the walk never enters. -/
def neverEntered : List String := [".git", ".hg", ".svn"]

/-- Why a repository cannot be scanned. -/
inductive OpenFault where
  | notDirectory (root : String)
  | invalidGlob (fault : Glob.Fault)
  | badGlobRange (fault : Glob.Fault)
  | linkLoop (place : Place)
  | badPath (path : String) (fault : PathFault)
  | noHome
  deriving DecidableEq

/-- The message for a fault. -/
def OpenFault.message : OpenFault → String
  | .notDirectory root => s!"Repository root is not a directory: {root}"
  | .invalidGlob fault => s!"Invalid glob pattern: {fault.message}"
  | .badGlobRange fault => fault.message
  | .linkLoop place => s!"Symlink loop from {Text.quoted place.text}"
  | .badPath path fault => fault.message path
  | .noHome => "Could not determine home directory."

/-- Why the files of a repository cannot be listed. -/
inductive ListFault where
  | git (failure : Git.Failure)
  | tooLong (place : Place)
  deriving DecidableEq

/-- The message for a fault. -/
def ListFault.message : ListFault → String
  | .git failure => failure.message
  | .tooLong place => PathFault.nameTooLong.message place.text

/-- A scanner over one root. -/
structure Scanner where
  world : World
  root : Place
  options : Options
  excludes : Option GlobList
  includes : Option GlobList
  ignored : Option IgnoreList
  usesGit : Bool

/-- The lists of globs that the options ask for. -/
def compileGlobs (patterns : List String) : Except OpenFault (Option GlobList) :=
  (GlobList.compile patterns).mapError fun fault =>
    match fault with
    | .invalid _ => .invalidGlob fault
    | .badRange .. => .badGlobRange fault

/-- Whether a text begins with a tilde. -/
def startsWithTilde (text : String) : Bool :=
  text.toList.head? == some '~'

/-- Whether a text holds a null character, which no path can. -/
def holdsNull (text : String) : Bool :=
  text.toList.contains (Char.ofNat 0)

/-- A root path with a leading tilde replaced by the home directory, which must not begin with a
tilde itself.  After the tilde there could be a name, of which nothing is known. -/
def expandHome (home path : String) : Except OpenFault String :=
  match Path.segments path with
  | [] => .ok path
  | first :: rest =>
    if Path.isAbsolute path || !startsWithTilde first then .ok path
    else if holdsNull first then .error (.badPath path .nullCharacter)
    else if first != "~" || startsWithTilde home then .error .noHome
    else .ok (home ++ "/" ++ Path.join rest)

/-- The place that a path writes, with links replaced as far as they lead anywhere; a path through
links that go round in circles is refused. -/
def settledPlace (s : Snapshot) (here : Place) (path : String) : Except OpenFault Place :=
  let place := s.resolvePath here path
  match s.locate [] place.text with
  | .error .tooManyLinks => .error (.linkLoop place)
  | _ => .ok place

/-- The place of a root path, which has to be a directory. -/
def openRoot (w : World) (root : String) : Except OpenFault Place := do
  let path ← expandHome w.home root
  if holdsNull path then throw (.badPath path .nullCharacter)
  let place ← settledPlace w.snapshot w.workingDirectory path
  match w.snapshot.locate [] place.text with
  | .error .nameTooLong => throw (.badPath place.text .nameTooLong)
  | .error _ => throw (.notDirectory root)
  | .ok place =>
    if w.snapshot.entryAt place == some .directory then return place
    else throw (.notDirectory root)

/-- A warning of the scanner. -/
def warning (text : String) : Log.Message :=
  ⟨.warning, .scanner, text⟩

/-- The globs of the lines of an ignore file.  A faulty file is ignored with a warning, a file
that says nothing without one. -/
def ignoreListOf (path : String) (content : List UInt8) :
    Except OpenFault (Option IgnoreList × List Log.Message) :=
  match Text.Utf8.decode content with
  | .error e => .ok (none, [warning s!"Could not read {path}: {e.message}"])
  | .ok text =>
    match IgnoreList.ofLines ((Text.lines text).map String.ofList) with
    | .error (.invalid pattern) =>
      .ok (none, [warning s!"Ignoring {path}: {(Glob.Fault.invalid pattern).message}"])
    | .error fault => .error (.badGlobRange fault)
    | .ok list => .ok (if list.globs.isEmpty then none else some list, [])

/-- Refuses an entry of the root that cannot be asked about. -/
def checkEntry (s : Snapshot) (root : Place) (name : String) : Except OpenFault Unit :=
  if s.isTooLong root name then .error (.badPath (Place.text (root ++ [name])) .nameTooLong)
  else .ok ()

/-- The ignore file of a root. -/
def readIgnoreFile (s : Snapshot) (root : Place) :
    Except OpenFault (Option IgnoreList × List Log.Message) := do
  checkEntry s root ignoreFileName
  match s.read? root ignoreFileName with
  | none => return (none, [])
  | some content => ignoreListOf (Place.text (root ++ [ignoreFileName])) content

/-- The name of the entry that makes a root the root of a work tree. -/
def workTreeMark : String := ".git"

/-- Git is asked where the root has an entry of its own for it and git is installed. -/
def prefersGit (w : World) (root : Place) : Except OpenFault Bool := do
  checkEntry w.snapshot root workTreeMark
  return w.snapshot.leadsSomewhere root workTreeMark && w.git.installed

/-- The list of exclude globs that options ask for, those that stand by default first. -/
def excludeGlobs (o : Options) : Except OpenFault (Option GlobList) :=
  compileGlobs ((if o.useDefaultExcludes then defaultExcludes else []) ++ o.excludes)

/-- The scanner over a root, with the warnings on the way.  `useGit` overrides the choice whether
git is asked. -/
def Scanner.open (w : World) (root : String) (o : Options) (useGit : Option Bool) :
    Except OpenFault (Scanner × List Log.Message) := do
  let place ← openRoot w root
  let excludes ← excludeGlobs o
  let includes ← compileGlobs o.includes
  let (ignored, warnings) ← readIgnoreFile w.snapshot place
  let usesGit ← match useGit with
    | some choice => .ok choice
    | none => prefersGit w place
  let scanner := { world := w, root := place, options := o, excludes, includes, ignored, usesGit }
  return (scanner, warnings)

namespace Scanner

/-- Whether the exclude globs match a path. -/
def matchesExcludes (sc : Scanner) (path : String) : Bool :=
  match sc.excludes with
  | some list => list.accepts path
  | none => false

/-- Whether a path is left out by the globs or the ignore file. -/
def isExcluded (sc : Scanner) (path : String) : Bool :=
  sc.matchesExcludes path ||
    (match sc.ignored with
      | some list => list.ignores path
      | none => false) ||
    (match sc.includes with
      | some list => !list.accepts path
      | none => false)

/-- Whether the walk enters a directory, given its path below the root. -/
def enters (sc : Scanner) (path : List String) : Bool :=
  !neverEntered.contains (path.getLast?.getD "") && !sc.matchesExcludes (Path.join path ++ "/")

/-- What the walk comes across. -/
def walkEncounters (sc : Scanner) : List Encounter :=
  let s := sc.world.snapshot
  walk s sc.root sc.enters s.directories [⟨[], sc.root⟩]

/-- The paths of the files among what the walk comes across, ascending. -/
def filePaths (encounters : List Encounter) : List String :=
  sortedNames ((encounters.filterMap Encounter.file?).map Path.join)

/-- The paths of all files that the walk finds, ascending. -/
def walkCandidates (sc : Scanner) : List String :=
  filePaths sc.walkEncounters

/-- The message about a directory that the walk comes across again. -/
def visitedMessage (sc : Scanner) (path : List String) : Log.Message :=
  let directory := Place.text (sc.root ++ path)
  ⟨.debug, .scanner, s!"Skipping already visited directory {directory}"⟩

/-- The paths of all files that the walk finds, with what there is to say about the walk. -/
def walked (sc : Scanner) : List String × List Log.Message :=
  let encounters := sc.walkEncounters
  (filePaths encounters, (encounters.filterMap Encounter.visited?).map sc.visitedMessage)

/-- The paths of the regular files that git lists, ascending.  Every path that git lists is looked
up, and one that is too long for that is a fault. -/
def gitCandidates (sc : Scanner) : Except ListFault (List String) := do
  let s := sc.world.snapshot
  let listed ← (Git.listPaths Git.lsFilesArgs sc.world.git.listing).mapError .git
  match listed.find? (s.isTooLong sc.root) with
  | some path => throw (.tooLong (Snapshot.placeOf sc.root path))
  | none => return listed.filter (s.isFile sc.root)

/-- The warning that git could not list the files. -/
def fallbackWarning (sc : Scanner) (failure : Git.Failure) : Log.Message :=
  let detail := failure.message
  warning
    s!"git listing failed under {sc.root.text}, walking the filesystem instead: {detail}"

/-- The paths of all candidates, ascending, with the messages on the way. -/
def candidates (sc : Scanner) : Except ListFault (List String × List Log.Message) :=
  if sc.usesGit then
    match sc.gitCandidates with
    | .ok paths => .ok (paths, [])
    | .error (.git failure) =>
      if failure.allowsWalk then
        let (paths, messages) := sc.walked
        .ok (paths, sc.fallbackWarning failure :: messages)
      else .error (.git failure)
    | .error fault => .error fault
  else .ok sc.walked

/-- How many candidates were seen, and what became of them. -/
structure Stats where
  seen : Nat := 0
  unsupported : Nat := 0
  excluded : Nat := 0
  yielded : Nat := 0
  deriving DecidableEq

/-- The files chosen so far, latest first, and the counts. -/
structure Progress where
  found : List (String × Language) := []
  stats : Stats := {}

/-- The language of a path if files of that language are wanted. -/
def wantedLanguage (sc : Scanner) (r : Registry) (path : String) : Option Language :=
  (r.forPath path).filter fun l => sc.options.wants l.name

/-- What becomes of one candidate. -/
def consider (sc : Scanner) (r : Registry) (p : Progress) (path : String) : Progress :=
  let stats := { p.stats with seen := p.stats.seen + 1 }
  if sc.isExcluded path then { p with stats := { stats with excluded := stats.excluded + 1 } }
  else match sc.wantedLanguage r path with
    | none => { p with stats := { stats with unsupported := stats.unsupported + 1 } }
    | some l =>
      { found := (path, l) :: p.found, stats := { stats with yielded := stats.yielded + 1 } }

/-- Considers candidates until as many files are chosen as are asked for. -/
def select (sc : Scanner) (r : Registry) (limit : Option Nat) (p : Progress) :
    List String → Progress
  | [] => p
  | path :: rest =>
    if limit == some p.stats.yielded then p else sc.select r limit (sc.consider r p path) rest

/-- The chosen files in order, the counts, the messages, and what git was asked. -/
structure Outcome where
  found : List (String × Language)
  stats : Stats
  messages : List Log.Message
  gitCalls : List (List String)

/-- Chooses files, at most as many as are asked for; no file asked for, nothing is looked at. -/
def run (sc : Scanner) (r : Registry) (limit : Option Nat) : Except ListFault Outcome := do
  if limit == some 0 then return ⟨[], {}, [], []⟩
  let (paths, messages) ← sc.candidates
  let p := sc.select r limit {} paths
  let gitCalls := if sc.usesGit then [Git.listingArgs Git.lsFilesArgs] else []
  return ⟨p.found.reverse, p.stats, messages, gitCalls⟩

end Scanner

end CodeChallenges.Repository

import CodeChallenges.CommandLine
import CodeChallenges.Language.BuiltIn
/-!
The program on a real machine.  The files below the root are read into a snapshot, the command line
is run on it, and its outcome is printed.  No grammar is linked into the program and it starts no
other program, so git counts as not installed.
-/

namespace CodeChallenges.Disk

open Repository

/-- What has been read, and the directories that have been visited. -/
structure Loaded where
  snapshot : Snapshot := .empty
  visited : List Place := []

/-- Adds the file at a path to what has been read; a file that cannot be read is left out. -/
def addFile (loaded : Loaded) (place : Place) (path : String) : IO Loaded := do
  try
    let content ← IO.FS.readBinFile path
    return { loaded with snapshot := loaded.snapshot.add place (.file content.toList) }
  catch _ => return loaded

/-- The path that a link leads to, if it leads anywhere. -/
def targetOf (path : String) : IO (Option String) := do
  try return some (← IO.FS.realPath path).toString
  catch _ => return none

/-- Reads a directory with all below it, and what links in it lead to.  Directories that no walk
enters are known to be there, but not read; neither are links that lead nowhere. -/
partial def visit (loaded : Loaded) (path : String) : IO Loaded := do
  let directory ← IO.FS.realPath path
  let place := Path.segments directory.toString
  if loaded.visited.contains place then return loaded
  let mut loaded : Loaded := ⟨loaded.snapshot.add place .directory, place :: loaded.visited⟩
  for item in ← directory.readDir do
    let here := place ++ [item.fileName]
    match (← item.path.symlinkMetadata).type with
    | .dir =>
      loaded := { loaded with snapshot := loaded.snapshot.add here .directory }
      if !neverEntered.contains item.fileName then loaded ← visit loaded item.path.toString
    | .file => loaded ← addFile loaded here item.path.toString
    | .symlink =>
      if let some target ← targetOf item.path.toString then
        loaded := { loaded with snapshot := loaded.snapshot.add here (.link target) }
        if ← item.path.isDir then loaded ← visit loaded target
        else loaded ← addFile loaded (Path.segments target) target
    | .other => pure ()
  return loaded

/-- The files below a root, which itself may be written through links. -/
def snapshotBelow (here : Place) (root : String) : IO Snapshot := do
  match ← targetOf root with
  | none => return .empty
  | some target =>
    let written := Snapshot.written (Snapshot.startOf here root) (Path.segments root)
    return (← visit {} target).snapshot.add written (.link target)

/-- Adds what a path leads to, with the path itself as a link to it. -/
def addPath (here : Place) (path : String) (s : Snapshot) : IO Snapshot := do
  let real ← IO.FS.realPath path
  let entry := if ← real.isDir then Entry.directory else Entry.file []
  let written := Snapshot.written (Snapshot.startOf here path) (Path.segments path)
  return (s.add (Path.segments real.toString) entry).add written (.link real.toString)

/-- Adds the file that the records go to, or at least its directory. -/
def addTarget (here : Place) (target : String) (s : Snapshot) : IO Snapshot := do
  try addPath here target s
  catch _ => try addPath here (Place.text (Snapshot.placeOf here target).dropLast) s
  catch _ => return s

/-- What is there of what a command line names: the files below the root, and the place of the
records. -/
def snapshotFor (here : Place) (home : String) (words : List String) : IO Snapshot := do
  match CommandLine.parseArguments words with
  | .error _ => return .empty
  | .ok a =>
    match expandHome home a.root with
    | .error _ => return .empty
    | .ok root =>
      let s ← try snapshotBelow here root catch _ => pure .empty
      match a.draft.ndjson with
      | none => return s
      | some target => addTarget here target s

/-- The settings that are in the environment. -/
def environment : IO Environment := do
  let names := [Config.workersVariable, Config.maxFileBytesVariable, Config.logLevelVariable,
    CommandLine.columnsVariable]
  names.filterMapM fun name => do return (← IO.getEnv name).map (name, ·)

/-- The surroundings of a run on this machine. -/
def surroundings (words : List String) : IO Extraction.Surroundings := do
  let home := (← IO.getEnv "HOME").getD "/"
  let here := Path.segments (← IO.currentDir).toString
  let world : World := {
    snapshot := ← snapshotFor here home words
    workingDirectory := here
    home
    git := ⟨false, .missing, fun _ => .missing⟩ }
  let emptyTree : Tree.Node := .mk ⟨0, "", 0, 0, true, true, none⟩ []
  return ⟨⟨Grammar.only [], fun _ _ => emptyTree⟩, .builtIn, world, ← environment, none⟩

/-- Prints the outcome of a run and gives its exit code. -/
def report (outcome : CommandLine.Outcome) : IO UInt32 := do
  for line in outcome.errorLines do IO.eprintln line
  if let some (path, text) := outcome.written then IO.FS.writeFile path text
  IO.print outcome.output
  return outcome.exitCode.toUInt32

end CodeChallenges.Disk

open CodeChallenges in
/-- Runs the program on the words of a command line. -/
def main (words : List String) : IO UInt32 := do
  match CommandLine.run (← Disk.surroundings words) words with
  | .ok outcome => Disk.report outcome
  | .error fault =>
    IO.eprintln fault.message
    return 1

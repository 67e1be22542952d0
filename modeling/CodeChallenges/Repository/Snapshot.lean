import CodeChallenges.Path
import CodeChallenges.Text.Quoted
/-!
A file system at one moment: directories, regular files and symbolic links, each at its place.  A
place is an absolute path as a list of names, and since links are entries of their own, every
directory has exactly one place.  Following a path goes through links, as far as their number and
the sizes of names allow; the walk visits the directories below a root through links too, each
directory once.
-/

namespace CodeChallenges.Repository

/-- The names on the way from the top of the file system. -/
abbrev Place := List String

/-- What can be at a place. -/
inductive Entry where
  | directory
  | file (content : List UInt8)
  | link (target : String)
  deriving DecidableEq

/-- All entries with their places.  The top itself is always a directory. -/
structure Snapshot where
  entries : List (Place × Entry)

/-- Why a path leads nowhere or cannot be used.  Of a missing name it is known which names were to
be followed from there. -/
inductive PathFault where
  | missing (beyond : List String)
  | notDirectory
  | isDirectory
  | tooManyLinks
  | nameTooLong
  | nullCharacter
  deriving DecidableEq

/-- The message for a fault of a path. -/
def PathFault.message (path : String) : PathFault → String
  | .missing _ => s!"[Errno 2] No such file or directory: {Text.quoted path}"
  | .notDirectory => s!"[Errno 20] Not a directory: {Text.quoted path}"
  | .isDirectory => s!"[Errno 21] Is a directory: {Text.quoted path}"
  | .tooManyLinks => s!"[Errno 40] Too many levels of symbolic links: {Text.quoted path}"
  | .nameTooLong => s!"[Errno 36] File name too long: {Text.quoted path}"
  | .nullCharacter => "embedded null byte"

/-- A place as an absolute path. -/
def Place.text (place : Place) : String :=
  "/" ++ Path.join place

namespace Snapshot

/-- The snapshot without entries. -/
def empty : Snapshot := ⟨[]⟩

/-- The entry at a place. -/
def entryAt (s : Snapshot) (place : Place) : Option Entry :=
  if place.isEmpty then some .directory else s.entries.lookup place

/-- Adds an entry unless its place is taken. -/
def addEntry (s : Snapshot) (place : Place) (entry : Entry) : Snapshot :=
  if (s.entryAt place).isSome then s else ⟨s.entries ++ [(place, entry)]⟩

/-- Adds an entry and the directories on the way to it. -/
def add (s : Snapshot) (place : Place) (entry : Entry) : Snapshot :=
  let ancestors := (List.range place.length).map (place.take ·)
  (ancestors.foldl (fun s p => s.addEntry p .directory) s).addEntry place entry

/-- The names in a directory. -/
def namesIn (s : Snapshot) (place : Place) : List String :=
  s.entries.filterMap fun (p, _) =>
    match p.getLast? with
    | some name => if p.dropLast == place then some name else none
    | none => none

/-- The places of all directories. -/
def directories (s : Snapshot) : List Place :=
  [] :: (s.entries.filter (·.2 == .directory)).map (·.1)

/-- The places of all links. -/
def links (s : Snapshot) : List Place :=
  s.entries.filterMap fun (place, entry) =>
    match entry with
    | .link _ => some place
    | _ => none

/-- The most links that one path may go through. -/
def maxLinks : Nat := 40

/-- The most bytes of a name. -/
def maxNameBytes : Nat := 255

/-- The most bytes of a path. -/
def maxPathBytes : Nat := 4095

/-- The bytes that a directory counts for itself. -/
def directorySize : Nat := 4096

/-- Where the names of a link's target start from, for a link in the directory `here`. -/
def startOf (here : Place) (path : String) : Place :=
  if Path.isAbsolute path then [] else here

/-- The names of a path with the empty ones, of which the last says that the path has to lead to a
directory. -/
def namesOf (path : String) : List String :=
  (Text.splitOnChar '/' path.toList).map String.ofList

/-- What is done with the entry that a path leads to. -/
inductive Purpose where
  | look
  | write
  deriving DecidableEq

/-- Whether names after another one only say that the path ends in a slash. -/
def isSlashEnd (names : List String) : Bool :=
  !names.isEmpty && names.all (· == "")

/-- Follows names from a directory, through at most `budget` links.  What is to be written cannot
be named with a slash at its end, whatever is there. -/
def follow (s : Snapshot) (purpose : Purpose) (budget : Nat) (here : Place) :
    List String → Except PathFault Place
  | [] => .ok here
  | name :: rest =>
    if s.entryAt here != some .directory then .error .notDirectory
    else if name == "" || name == "." then s.follow purpose budget here rest
    else if name == ".." then s.follow purpose budget here.dropLast rest
    else if purpose == .write && isSlashEnd rest then .error .isDirectory
    else if maxNameBytes < name.utf8ByteSize then .error .nameTooLong
    else match s.entryAt (here ++ [name]) with
      | none => .error (.missing rest)
      | some (.link target) =>
        match budget with
        | 0 => .error .tooManyLinks
        | budget + 1 => s.follow purpose budget (startOf here target) (namesOf target ++ rest)
      | some _ => s.follow purpose budget (here ++ [name]) rest
  termination_by names => (budget, names.length)

/-- The place that a path writes when it is read in a directory. -/
def placeOf (here : Place) (path : String) : Place :=
  startOf here path ++ Path.segments path

/-- The place that a path leads to from a directory, for some purpose. -/
def locateFor (s : Snapshot) (purpose : Purpose) (here : Place) (path : String) :
    Except PathFault Place :=
  if path.toList.contains (Char.ofNat 0) then .error .nullCharacter
  else if maxPathBytes < (placeOf here path).text.utf8ByteSize then .error .nameTooLong
  else s.follow purpose maxLinks (startOf here path) (Path.segments path)

/-- The place that a path leads to from a directory. -/
def locate (s : Snapshot) (here : Place) (path : String) : Except PathFault Place :=
  s.locateFor .look here path

/-- The entry that the path of names leads to from a directory, with its place. -/
def find? (s : Snapshot) (here : Place) (names : List String) : Option (Place × Entry) :=
  match s.locate here (Path.join names) with
  | .ok place => (s.entryAt place).map (place, ·)
  | .error _ => none

/-- The content of the regular file that a path leads to. -/
def read? (s : Snapshot) (here : Place) (path : String) : Option (List UInt8) :=
  match s.locate here path with
  | .error _ => none
  | .ok place =>
    match s.entryAt place with
    | some (.file content) => some content
    | _ => none

/-- Whether a path leads to a regular file. -/
def isFile (s : Snapshot) (here : Place) (path : String) : Bool :=
  (s.read? here path).isSome

/-- Whether a path leads to anything. -/
def leadsSomewhere (s : Snapshot) (here : Place) (path : String) : Bool :=
  match s.locate here path with
  | .ok place => (s.entryAt place).isSome
  | .error _ => false

/-- Whether a path cannot be asked about since it, or a name that is looked up on its way, is too
long. -/
def isTooLong (s : Snapshot) (here : Place) (path : String) : Bool :=
  match s.locate here path with
  | .error .nameTooLong => true
  | _ => false

/-- Why no file can be written under a path, if none can.  A file that is missing from its
directory is made. -/
def writeFault? (s : Snapshot) (here : Place) (path : String) : Option PathFault :=
  match s.locateFor .write here path with
  | .ok place => if s.entryAt place == some .directory then some .isDirectory else none
  | .error (.missing []) => none
  | .error fault => some fault

/-- The place that names write, taking no entry for a link. -/
def written (here : Place) (names : List String) : Place :=
  names.foldl (fun place name =>
    if name == "" || name == "." then place
    else if name == ".." then place.dropLast
    else place ++ [name]) here

/-- The place that names write after a place where links go round in circles.  Names whose text
begins with a slash, which is an empty name before others, start again from the top. -/
def writtenAfter (stuck : Place) : List String → Place
  | "" :: name :: rest => written [] (name :: rest)
  | names => written stuck names

/-- The place that names write with the links on the way replaced; names of nothing are kept as
they are.  `idle` holds the links that are not being replaced: a link that is met while it is being
replaced is kept too, with all names after it, and that place is the error. -/
def resolve (s : Snapshot) (idle : List Place) (here : Place) : List String → Except Place Place
  | [] => .ok here
  | name :: rest =>
    if name == "" || name == "." then s.resolve idle here rest
    else if name == ".." then s.resolve idle here.dropLast rest
    else match s.entryAt (here ++ [name]) with
      | some (.link target) =>
        if _h : here ++ [name] ∈ idle then
          match s.resolve (idle.erase (here ++ [name])) (startOf here target)
              (namesOf target) with
          | .ok place => s.resolve idle place rest
          | .error stuck => .error (writtenAfter stuck rest)
        else .error (writtenAfter (here ++ [name]) rest)
      | _ => s.resolve idle (here ++ [name]) rest
  termination_by names => (idle.length, names.length)
  decreasing_by
    all_goals simp_wf
    · exact Prod.Lex.right _ (by simp)
    · exact Prod.Lex.right _ (by simp)
    · apply Prod.Lex.left
      have hpos := List.length_pos_of_mem _h
      have herase := List.length_erase_of_mem _h
      omega
    · exact Prod.Lex.right _ (by simp)
    · exact Prod.Lex.right _ (by simp)

/-- The place that a path writes, with links replaced as far as they lead anywhere. -/
def resolvePath (s : Snapshot) (here : Place) (path : String) : Place :=
  match s.resolve s.links (startOf here path) (Path.segments path) with
  | .ok place => place
  | .error place => place

/-- The subdirectories of the directory at a place, links to directories included, with their
places.  The directory is reached from a root by a path that counts for what can be followed. -/
def subdirectories (s : Snapshot) (root : Place) (path : List String) (place : Place) :
    List (String × Place) :=
  (s.namesIn place).filterMap fun name =>
    match s.find? root (path ++ [name]) with
    | some (target, .directory) => some (name, target)
    | _ => none

/-- The names of the regular files in the directory at a place, links to files included. -/
def filesIn (s : Snapshot) (root : Place) (path : List String) (place : Place) : List String :=
  (s.namesIn place).filter fun name =>
    match s.find? root (path ++ [name]) with
    | some (_, .file _) => true
    | _ => false

end Snapshot

/-- A directory that is still to be visited: its path below the root, and its place. -/
structure Pending where
  path : List String
  place : Place

/-- What a walk comes across, with its path below the root: a file, or a directory that was visited
before by another path. -/
inductive Encounter where
  | file (path : List String)
  | visited (path : List String)

/-- The path of a file that was come across. -/
def Encounter.file? : Encounter → Option (List String)
  | .file path => some path
  | .visited _ => none

/-- The path of a directory that was come across again. -/
def Encounter.visited? : Encounter → Option (List String)
  | .file _ => none
  | .visited path => some path

/-- Visits directories in order, each before its subdirectories.  `unvisited` holds the places that
have not been visited; `enter` says which subdirectories are entered. -/
def walk (s : Snapshot) (root : Place) (enter : List String → Bool) (unvisited : List Place) :
    List Pending → List Encounter
  | [] => []
  | d :: rest =>
    if _h : d.place ∈ unvisited then
      let files := (s.filesIn root d.path d.place).map fun name => .file (d.path ++ [name])
      let below := (s.subdirectories root d.path d.place).mergeSort fun a b => decide (a.1 ≤ b.1)
      let entered := (below.map fun (name, place) => Pending.mk (d.path ++ [name]) place).filter
        (enter ·.path)
      files ++ walk s root enter (unvisited.erase d.place) (entered ++ rest)
    else .visited d.path :: walk s root enter unvisited rest
  termination_by pending => (unvisited.length, pending.length)
  decreasing_by
    · apply Prod.Lex.left
      have hpos := List.length_pos_of_mem _h
      have herase := List.length_erase_of_mem _h
      omega
    · apply Prod.Lex.right
      simp

end CodeChallenges.Repository

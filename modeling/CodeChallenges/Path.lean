import CodeChallenges.Text.Lines
/-!
Path texts with forward slashes.  Empty segments and single dots name nothing and are passed over;
double dots are kept, for what they mean depends on the links of a file system.
-/

namespace CodeChallenges.Path

/-- The segments of a path, outermost first. -/
def segments (path : String) : List String :=
  ((Text.splitOnChar '/' path.toList).map String.ofList).filter fun s => s != "" && s != "."

/-- Whether a path starts at the top of the file system. -/
def isAbsolute (path : String) : Bool :=
  path.toList.head? == some '/'

/-- Segments as a relative path. -/
def join (segments : List String) : String :=
  "/".intercalate segments

/-- A path without what names nothing: the current directory is a single dot, and of slashes at
the front one is left, or two if there are exactly two. -/
def normalize (path : String) : String :=
  let slashes := (path.toList.takeWhile (· == '/')).length
  match slashes, segments path with
  | 0, [] => "."
  | 0, segments => join segments
  | 2, segments => "//" ++ join segments
  | _, segments => "/" ++ join segments

/-- The last segment, or nothing for a path without segments. -/
def name (path : String) : String :=
  (segments path).getLast?.getD ""

/-- The name of the directory that holds the path. -/
def parentName (path : String) : String :=
  (segments path).dropLast.getLast?.getD ""

/-- The ending of a name from its last dot on; none when that dot is its first or last
character. -/
def suffixOf (name : List Char) : List Char :=
  let ending := (name.reverse.takeWhile (· != '.')).reverse
  if ending.isEmpty || ending.length + 1 ≥ name.length then [] else '.' :: ending

/-- The ending of the last segment of a path, with its dot. -/
def suffix (path : String) : String :=
  String.ofList (suffixOf (name path).toList)

end CodeChallenges.Path

import CodeChallenges.CommandLine.Arguments
import CodeChallenges.Config
import CodeChallenges.Text.Wrap
/-!
What the program says about its command line, laid out for the width of a terminal.
-/

namespace CodeChallenges.CommandLine

/-- The name of the program. -/
def programName : String := "gittype-extract"

/-- What the program does. -/
def programPurpose : String := "Extract typing challenges from a source repository."

/-- What stands for the root directory. -/
def rootName : String := "root"

/-- What the root directory is. -/
def rootPurpose : String := "Repository root directory"

/-- What an option does. -/
def Flag.purpose : Flag → String
  | .help => "show this help message and exit"
  | .language => "Restrict to a language name or alias (repeatable)"
  | .includeGlob => "Only scan paths matching GLOB (repeatable)"
  | .excludeGlob => "Skip paths matching GLOB (repeatable)"
  | .noDefaultExcludes => "Do not apply the built-in exclude list"
  | .collapseEmptyLines => "Drop blank lines inside challenges"
  | .maxBlankRun =>
    "With --collapse-empty-lines, keep up to N blank lines per run (default: 0)"
  | .blocks => "Also extract loops, conditionals and other blocks"
  | .fileChunks => "Also emit one whole-file challenge per file"
  | .workers => "Worker threads (default: GITTYPE_WORKERS or min(8, cpus))"
  | .ndjson => "Write every challenge as NDJSON to PATH ('-' for stdout)"

/-- A spelling of an option with the name of its value. -/
def Flag.spelled (flag : Flag) (name : String) : String :=
  match flag.valueName? with
  | some value => s!"{name} {value}"
  | none => name

/-- All spellings of an option. -/
def Flag.heading (flag : Flag) : String :=
  ", ".intercalate (flag.names.map flag.spelled)

/-- The first spelling of an option, in brackets since it may be left out. -/
def Flag.bracketed (flag : Flag) : String :=
  "[" ++ flag.spelled (flag.names.headD "") ++ "]"

/-- The variable that holds the number of columns of the terminal. -/
def columnsVariable : String := "COLUMNS"

/-- The number of columns if nothing else is known. -/
def defaultColumns : Nat := 80

/-- The width of lines: the columns of the terminal without a margin of two. -/
def lineWidth (e : Environment) : Nat :=
  let columns := ((e.lookup columnsVariable).bind fun text => Text.readInt? text.toList).getD 0
  (if 0 < columns then columns.toNat else defaultColumns) - 2

/-- As many blanks. -/
def blanks (count : Nat) : String :=
  String.ofList (List.replicate count ' ')

/-- Parts in lines, each part after a blank where it does not begin a line.  The next part would
start at column `column`; every further line starts at column `indent`. -/
def packed (width indent column : Nat) (line : List String) : List String → List (List String)
  | [] => if line.isEmpty then [] else [line]
  | part :: rest =>
    if width < column + part.length && !line.isEmpty then
      line :: packed width indent (indent + part.length + 1) [part] rest
    else packed width indent (column + part.length + 1) (line ++ [part]) rest

/-- What the short description begins with. -/
def usageMark : String := "usage: "

/-- Parts in lines that start at a column. -/
def packedLines (width indent : Nat) (parts : List String) : List String :=
  (packed width indent indent [] parts).map fun line => blanks indent ++ " ".intercalate line

/-- The short description of the command line, if it does not fit a line.  The options follow the
name of the program if that leaves enough room, and the root directory has lines of its own. -/
def brokenUsage (width : Nat) (options : List String) : List String :=
  let head := usageMark ++ programName
  if 4 * head.length ≤ 3 * width then
    let indent := head.length + 1
    match packed width indent usageMark.length [] (programName :: options) with
    | [] => []
    | first :: rest =>
      (usageMark ++ " ".intercalate first) ::
        (rest.map fun line => blanks indent ++ " ".intercalate line) ++
        packedLines width indent [rootName]
  else
    let indent := usageMark.length
    head :: packedLines width indent options ++ packedLines width indent [rootName]

/-- The short description of the command line. -/
def usageLines (width : Nat) : List String :=
  let options := Flag.all.map Flag.bracketed
  let line := usageMark ++ " ".intercalate (programName :: options ++ [rootName])
  if line.length ≤ width then [line] else brokenUsage width options

/-- The width of a column of text: never less than eleven. -/
def textWidth (available : Nat) : Nat :=
  max available 11

/-- A text in lines. -/
def filled (available : Nat) (text : String) : List String :=
  (Text.Wrap.lines (textWidth available) text.toList).map String.ofList

/-- The column where explanations start. -/
def explanationColumn (width : Nat) : Nat :=
  min 24 (max (width - 20) 4)

/-- A heading with its explanation, which starts on the next line if the heading is too long. -/
def entryLines (width : Nat) (heading explanation : String) : List String :=
  let column := explanationColumn width
  let lines := filled (width - column) explanation
  let indented := lines.map (blanks column ++ ·)
  if heading.length + 4 ≤ column then
    (blanks 2 ++ heading ++ blanks (column - 2 - heading.length) ++ lines.headD "") ::
      indented.drop 1
  else (blanks 2 ++ heading) :: indented

/-- The long description of the command line. -/
def helpLines (width : Nat) : List String :=
  usageLines width ++ [""] ++ filled width programPurpose ++
    ["", "positional arguments:"] ++ entryLines width rootName rootPurpose ++
    ["", "options:"] ++ Flag.all.flatMap fun flag => entryLines width flag.heading flag.purpose

/-- Lines as a text, each line ended. -/
def unlines (lines : List String) : String :=
  String.join (lines.map (· ++ "\n"))

/-- The text that a request for help prints. -/
def helpText (width : Nat) : String :=
  unlines (helpLines width)

/-- The lines that a faulty command line prints. -/
def faultLines (width : Nat) (fault : Fault) : List String :=
  usageLines width ++ [s!"{programName}: error: {fault.message}"]

end CodeChallenges.CommandLine

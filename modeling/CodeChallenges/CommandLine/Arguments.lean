import CodeChallenges.Text.Digit
import CodeChallenges.Text.Integer
import CodeChallenges.Text.Lines
import CodeChallenges.Text.Quoted
/-!
The words of a command line.  A word that begins with a hyphen is an option, which may be shortened
as far as it stays unambiguous and may carry its value after an equals sign, where two hyphens leave
the value out; negative numbers and all words after two hyphens are no options.  The first other
word is the root directory.
-/

namespace CodeChallenges.CommandLine

/-- The options. -/
inductive Flag where
  | help
  | language
  | includeGlob
  | excludeGlob
  | noDefaultExcludes
  | collapseEmptyLines
  | maxBlankRun
  | blocks
  | fileChunks
  | workers
  | ndjson
  deriving DecidableEq

namespace Flag

/-- The spellings of an option. -/
def names : Flag → List String
  | .help => ["-h", "--help"]
  | .language => ["--lang"]
  | .includeGlob => ["--include"]
  | .excludeGlob => ["--exclude"]
  | .noDefaultExcludes => ["--no-default-excludes"]
  | .collapseEmptyLines => ["--collapse-empty-lines"]
  | .maxBlankRun => ["--max-blank-run"]
  | .blocks => ["--blocks"]
  | .fileChunks => ["--file-chunks"]
  | .workers => ["--workers"]
  | .ndjson => ["--ndjson"]

/-- Every option, in the order of the usage text. -/
def all : List Flag := [
  .help, .language, .includeGlob, .excludeGlob, .noDefaultExcludes, .collapseEmptyLines,
  .maxBlankRun, .blocks, .fileChunks, .workers, .ndjson]

/-- What the value of an option is called, for an option that has one. -/
def valueName? : Flag → Option String
  | .language => some "LANG"
  | .includeGlob => some "GLOB"
  | .excludeGlob => some "GLOB"
  | .maxBlankRun => some "N"
  | .workers => some "WORKERS"
  | .ndjson => some "PATH"
  | .help | .noDefaultExcludes | .collapseEmptyLines | .blocks | .fileChunks => none

/-- Whether an option has a value. -/
def takesValue (flag : Flag) : Bool :=
  flag.valueName?.isSome

/-- Every spelling with its option. -/
def spellings : List (String × Flag) :=
  all.flatMap fun flag => flag.names.map fun name => (name, flag)

end Flag

/-- What is wrong with a command line. -/
inductive Fault where
  | ambiguous (word : String) (candidates : List String)
  | expectedValue (flag : Flag)
  | ignoredValue (flag : Flag) (value : String)
  | notInteger (flag : Flag) (value : String)
  | missingRoot
  | unrecognized (words : List String)
  deriving DecidableEq

/-- The message for a fault. -/
def Fault.message : Fault → String
  | .ambiguous word candidates =>
    let list := ", ".intercalate candidates
    s!"ambiguous option: {word} could match {list}"
  | .expectedValue flag =>
    let names := "/".intercalate flag.names
    s!"argument {names}: expected one argument"
  | .ignoredValue flag value =>
    let names := "/".intercalate flag.names
    s!"argument {names}: ignored explicit argument {Text.quoted value}"
  | .notInteger flag value =>
    let names := "/".intercalate flag.names
    s!"argument {names}: invalid int value: {Text.quoted value}"
  | .missingRoot => "the following arguments are required: root"
  | .unrecognized words =>
    let list := " ".intercalate words
    s!"unrecognized arguments: {list}"

/-- What one word is.  An option may have a value attached, in the same word. -/
inductive Word where
  | plain (text : String)
  | separator
  | option (flag : Flag) (isShort : Bool) (attached : Option (List Char))
  | unknown (text : String)

/-- The part of a word before its first equals sign, and the part after it if there is one. -/
def splitAtEquals (cs : List Char) : List Char × Option (List Char) :=
  match cs.dropWhile (· != '=') with
  | [] => (cs, none)
  | _ :: value => (cs.takeWhile (· != '='), some value)

/-- Whether a word is a negative number, possibly with a fraction; a newline may end it. -/
def isNegativeNumber (cs : List Char) : Bool :=
  match cs with
  | '-' :: digits =>
    let isDigit := fun c => (Text.digitValue? c).isSome
    let whole := digits.takeWhile isDigit
    match digits.dropWhile isDigit with
    | '.' :: rest => (rest.takeWhile isDigit != []) && isEnd (rest.dropWhile isDigit)
    | rest => whole != [] && isEnd rest
  | _ => false
where
  /-- Nothing, or one newline. -/
  isEnd (rest : List Char) : Bool :=
    rest == [] || rest == ['\n']

/-- The options that a word may stand for, with the spelling that each would have. -/
def interpretations (cs : List Char) : List (String × Word) :=
  match cs with
  | '-' :: '-' :: _ =>
    let (name, value) := splitAtEquals cs
    (Flag.spellings.filter fun s => name.isPrefixOf s.1.toList).map fun s =>
      (s.1, .option s.2 false value)
  | _ =>
    (Flag.spellings.filter fun s => s.1.toList == cs.take 2).map fun s =>
      (s.1, .option s.2 true (some (cs.drop 2)))

/-- The option that a word spells in full, perhaps with a value after an equals sign. -/
def exactOption? (cs : List Char) : Option Word :=
  let isShort := cs[1]? != some '-'
  match Flag.spellings.lookup (String.ofList cs) with
  | some flag => some (.option flag isShort none)
  | none =>
    match splitAtEquals cs with
    | (name, some value) =>
      (Flag.spellings.lookup (String.ofList name)).map fun flag =>
        .option flag isShort (some value)
    | (_, none) => none

/-- What a word before any separator is. -/
def classify (word : String) : Except Fault Word :=
  let cs := word.toList
  if cs.head? != some '-' || cs == ['-'] then .ok (.plain word)
  else match exactOption? cs with
    | some option => .ok option
    | none =>
      match interpretations cs with
      | [(_, option)] => .ok option
      | [] =>
        if isNegativeNumber cs || cs.contains ' ' then .ok (.plain word) else .ok (.unknown word)
      | several => .error (.ambiguous word (several.map (·.1)))

/-- What the words of a command line are; after the first separator none is an option. -/
def classifyAll : List String → Except Fault (List Word)
  | [] => .ok []
  | word :: rest =>
    if word == "--" then .ok (.separator :: rest.map .plain)
    else do return (← classify word) :: (← classifyAll rest)

/-- A command line as far as it has been read.  `leftOut` holds the options that lack their value,
unless it was given later or is not needed. -/
structure Draft where
  root : Option String := none
  languages : Option (List String) := none
  includes : List String := []
  excludes : List String := []
  noDefaultExcludes : Bool := false
  collapseEmptyLines : Bool := false
  maxBlankRun : Int := 0
  blocks : Bool := false
  fileChunks : Bool := false
  workers : Option Int := none
  ndjson : Option String := none
  leftOut : List Flag := []
  extras : List String := []

/-- What ends the reading of a command line early. -/
inductive Stop where
  | help
  | fault (fault : Fault)
  deriving DecidableEq

/-- An option without a value. -/
def Draft.set (d : Draft) : Flag → Except Stop Draft
  | .help => .error .help
  | .noDefaultExcludes => .ok { d with noDefaultExcludes := true }
  | .collapseEmptyLines => .ok { d with collapseEmptyLines := true }
  | .blocks => .ok { d with blocks := true }
  | .fileChunks => .ok { d with fileChunks := true }
  | flag => .error (.fault (.expectedValue flag))

/-- The integer that an option has as its value. -/
def integerValue (flag : Flag) (value : String) : Except Stop Int :=
  match Text.readInt? value.toList with
  | some n => .ok n
  | none => .error (.fault (.notInteger flag value))

/-- Notes that an option has its value. -/
def Draft.has (d : Draft) (flag : Flag) : Draft :=
  { d with leftOut := d.leftOut.filter (· != flag) }

/-- An option with a value.  Of a number the last value counts. -/
def Draft.setValue (d : Draft) (flag : Flag) (value : String) : Except Stop Draft :=
  match flag with
  | .language => .ok { d with languages := some (d.languages.getD [] ++ [value]) }
  | .includeGlob => .ok { d with includes := d.includes ++ [value] }
  | .excludeGlob => .ok { d with excludes := d.excludes ++ [value] }
  | .maxBlankRun => (integerValue flag value).map fun n => { d.has flag with maxBlankRun := n }
  | .workers => (integerValue flag value).map fun n => { d.has flag with workers := some n }
  | .ndjson => .ok { d with ndjson := some value }
  | _ => .error (.fault (.ignoredValue flag value))

/-- How a language is shown that was left out. -/
def emptyLanguage : String := "[]"

/-- An option whose value is left out.  A language that is left out is no language, and without a
target no records are written; any other option lacks its value. -/
def Draft.leaveOut (d : Draft) (flag : Flag) : Except Stop Draft :=
  match flag with
  | .language => d.setValue flag emptyLanguage
  | .ndjson => .ok { d with ndjson := none }
  | _ => .ok { d with leftOut := flag :: d.leftOut }

/-- The short options in a text: each character is one. -/
def shortOptions (before : Flag) : List Char → Except Fault (List Flag)
  | [] => .ok []
  | c :: cs =>
    match Flag.spellings.lookup (String.ofList ['-', c]) with
    | none => .error (.ignoredValue before (String.ofList (c :: cs)))
    | some flag => (shortOptions flag cs).map (flag :: ·)

/-- An option with what is attached to it: its value, or after a short option without a value
further short options, which are all known before any takes effect. -/
def Draft.setAttached (d : Draft) (flag : Flag) (isShort : Bool) (attached : List Char) :
    Except Stop Draft := do
  if flag.takesValue then
    if attached == ['-', '-'] then d.leaveOut flag else d.setValue flag (String.ofList attached)
  else if isShort && attached != [] then
    let further ← (shortOptions flag attached).mapError .fault
    (flag :: further).foldlM Draft.set d
  else throw (.fault (.ignoredValue flag (String.ofList attached)))

/-- A word that is no option: the root directory, or one word too many. -/
def Draft.addPlain (d : Draft) (text : String) : Draft :=
  match d.root with
  | none => { d with root := some text }
  | some _ => { d with extras := d.extras ++ [text] }

/-- Words without a separator at their front. -/
def skipSeparator : List Word → List Word
  | .separator :: rest => rest
  | words => words

theorem skipSeparator_length (words : List Word) :
    (skipSeparator words).length ≤ words.length := by
  unfold skipSeparator
  split <;> simp

/-- Reads words one after another. -/
def Draft.read (d : Draft) : List Word → Except Stop Draft
  | [] => .ok d
  | .unknown text :: rest => { d with extras := d.extras ++ [text] }.read rest
  | .separator :: rest =>
    if d.root.isNone then d.read rest else { d with extras := d.extras ++ ["--"] }.read rest
  | .plain text :: rest =>
    if d.root.isNone then (d.addPlain text).read (skipSeparator rest)
    else (d.addPlain text).read rest
  | .option flag isShort (some attached) :: rest => do
    (← d.setAttached flag isShort attached).read rest
  | .option flag _ none :: rest =>
    if flag.takesValue then
      match rest with
      | .plain value :: rest => do (← d.setValue flag value).read rest
      | _ => .error (.fault (.expectedValue flag))
    else do (← d.set flag).read rest
  termination_by words => words.length
  decreasing_by
    all_goals simp only [List.length_cons]
    any_goals omega
    have := skipSeparator_length rest
    omega

/-- What a command line asks for. -/
structure Arguments where
  root : String
  draft : Draft

/-- Reads a command line. -/
def parseArguments (words : List String) : Except Stop Arguments := do
  let classified ← (classifyAll words).mapError .fault
  let draft ← Draft.read {} classified
  match draft.root with
  | none => .error (.fault .missingRoot)
  | some root =>
    if draft.extras.isEmpty then return { root, draft }
    else .error (.fault (.unrecognized draft.extras))

end CodeChallenges.CommandLine

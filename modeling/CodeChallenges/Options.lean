import CodeChallenges.Names
/-!
What one extraction is asked to do.
-/

namespace CodeChallenges

/-- The largest file that is read unless told otherwise: one mebibyte. -/
def defaultMaxFileBytes : Int := 1024 * 1024

/-- The wishes of one extraction.  `languages` holds names of languages, ascending and without
repetition; none means every registered language. -/
structure Options where
  languages : Option (List String) := none
  includes : List String := []
  excludes : List String := []
  preserveEmptyLines : Bool := true
  maxBlankRun : Int := 0
  maxFileBytes : Int := defaultMaxFileBytes
  includeBlocks : Bool := false
  includeFileChunks : Bool := false
  useDefaultExcludes : Bool := true
  workers : Option Int := none

namespace Options

/-- Whether files of the named language are wanted. -/
def wants (o : Options) (language : String) : Bool :=
  match o.languages with
  | none => true
  | some names => names.contains language

end Options

end CodeChallenges

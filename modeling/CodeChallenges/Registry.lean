import CodeChallenges.Language
import CodeChallenges.Options
import CodeChallenges.Path
/-!
The registry of languages: a list in order of registration with one entry for each normalized
name.  Of several languages that answer to one key, the last in the list is found.
-/

namespace CodeChallenges

/-- The registered languages, in order of registration. -/
structure Registry where
  languages : List Language

namespace Registry

/-- Why a language is refused. -/
inductive Fault where
  | emptyName
  | noExtensions (name : String)
  deriving DecidableEq

/-- The message for a fault. -/
def Fault.message : Fault → String
  | .emptyName => "Language name must be non-empty"
  | .noExtensions name => s!"Language {Text.quoted name} declares no extensions"

/-- The key of the one entry that a language can have. -/
def keyOf (l : Language) : String :=
  Language.normalize l.name

/-- Replaces the entry with the same key in its place, or adds the language at the end. -/
def insert (l : Language) : List Language → List Language
  | [] => [l]
  | entry :: rest => if keyOf entry == keyOf l then l :: rest else entry :: insert l rest

/-- Adds a language, or replaces the entry of the same name. -/
def register (r : Registry) (l : Language) : Except Fault Registry :=
  if keyOf l == "" then .error .emptyName
  else if l.extensions.isEmpty then .error (.noExtensions l.name)
  else .ok ⟨insert l r.languages⟩

/-- Removes the entry of a name. -/
def unregister (r : Registry) (name : String) : Registry :=
  ⟨r.languages.filter fun l => keyOf l != Language.normalize name⟩

/-- The last language that satisfies a test. -/
def findLast (r : Registry) (p : Language → Bool) : Option Language :=
  r.languages.reverse.find? p

/-- Whether a normalized key is the name or an alias of a language. -/
def answersTo (key : String) (l : Language) : Bool :=
  (l.name :: l.aliases).any fun a => Language.normalize a == key

/-- Look-up by a normalized name or alias. -/
def byKey (r : Registry) (key : String) : Option Language :=
  r.findLast (answersTo key)

/-- Look-up by name or alias. -/
def byName (r : Registry) (name : String) : Option Language :=
  r.byKey (Language.normalize name)

/-- Look-up by a normalized extension. -/
def byExtension (r : Registry) (extension : String) : Option Language :=
  r.findLast (·.extensions.contains extension)

/-- Look-up by extension or else by name or alias; a blank key finds nothing. -/
def resolve (r : Registry) (key : String) : Option Language :=
  let normal := Language.normalize key
  if normal == "" then none
  else (r.byExtension normal).orElse fun _ => r.byKey normal

/-- The language of a path by its extension. -/
def forPath (r : Registry) (path : String) : Option Language :=
  let suffix := Path.suffix path
  if suffix == "" then none else r.byExtension (Language.normalize suffix)

/-- The names of all languages. -/
def names (r : Registry) : List String :=
  r.languages.map (·.name)

/-- The requested names that no language answers to. -/
def unsupported (r : Registry) (requested : List String) : List String :=
  requested.filter fun name => (r.byName name).isNone

/-- The canonical names of requested languages, or the requested names that are not supported. -/
def canonicalNames (r : Registry) (requested : List String) : Except (List String) (List String) :=
  match r.unsupported requested with
  | [] => .ok (sortedNames ((requested.filterMap r.byName).map (·.name)))
  | missing => .error missing

/-- The message for languages that are not supported. -/
def unsupportedMessage (missing : List String) : String :=
  "Unsupported languages: " ++ ", ".intercalate missing

end Registry

namespace Options

/-- The options with a wish for languages, checked against the registry. -/
def restrictTo (o : Options) (r : Registry) : Option (List String) → Except (List String) Options
  | none => .ok { o with languages := none }
  | some requested => do return { o with languages := some (← r.canonicalNames requested) }

end Options

end CodeChallenges

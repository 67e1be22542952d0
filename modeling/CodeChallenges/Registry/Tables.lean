import CodeChallenges.Language.BuiltIn
import CodeChallenges.Registry
/-!
The registry as it is kept for quick look-ups: a table of the languages under their keys, and two
indexes beside it, one by extension and one by name or alias.  Only the table of languages is
changed entry by entry; after each change both indexes are emptied and filled again, language after
language, and what is set later replaces what was set before.
-/

namespace CodeChallenges.Registry

/-- A table with one entry for each key, in the order in which the keys came into it. -/
abbrev Table := List (String × Language)

namespace Table

/-- Sets the entry of a key: in its place if the key has one, and else at the end. -/
def set (key : String) (l : Language) : Table → Table
  | [] => [(key, l)]
  | entry :: rest => if entry.1 == key then (key, l) :: rest else entry :: set key l rest

/-- Removes the entry of a key. -/
def erase (key : String) (table : Table) : Table :=
  table.filter (·.1 != key)

/-- Sets a language under several keys, one after the other. -/
def setAll (table : Table) (l : Language) (keys : List String) : Table :=
  keys.foldl (fun table key => set key l table) table

/-- The index of languages by some keys of each. -/
def index (keysOf : Language → List String) (languages : List Language) : Table :=
  languages.foldl (fun table l => table.setAll l (keysOf l)) []

/-- The languages in a table, in order. -/
def languages (table : Table) : List Language :=
  table.map (·.2)

end Table

/-- The keys of a language in the index of names: its name and its aliases. -/
def aliasKeys (l : Language) : List String :=
  (l.name :: l.aliases).map Language.normalize

/-- The table of languages and its two indexes. -/
structure Tables where
  entries : Table
  byExtension : Table
  byAlias : Table

/-- Why a language is refused, if it is. -/
def refusal? (l : Language) : Option Fault :=
  if keyOf l == "" then some .emptyName
  else if l.extensions.isEmpty then some (.noExtensions l.name)
  else none

namespace Tables

/-- The tables of some entries, with the indexes made anew. -/
def ofEntries (entries : Table) : Tables where
  entries
  byExtension := Table.index (·.extensions) entries.languages
  byAlias := Table.index aliasKeys entries.languages

/-- The tables at the start, into which the built-in languages are put one after the other. -/
def builtIn : Tables :=
  ofEntries (BuiltIn.languages.foldl (fun entries l => entries.set (keyOf l) l) [])

/-- Adds a language, or replaces the entry of its key. -/
def register (t : Tables) (l : Language) : Except Fault Tables :=
  match refusal? l with
  | some fault => .error fault
  | none => .ok (ofEntries (t.entries.set (keyOf l) l))

/-- Removes the entry of a name; if there is none, nothing is made anew. -/
def unregister (t : Tables) (name : String) : Tables :=
  if (t.entries.lookup (Language.normalize name)).isSome then
    ofEntries (t.entries.erase (Language.normalize name))
  else t

/-- Look-up by name or alias. -/
def byName (t : Tables) (name : String) : Option Language :=
  t.byAlias.lookup (Language.normalize name)

/-- The language of a path by its extension. -/
def forPath (t : Tables) (path : String) : Option Language :=
  let suffix := Path.suffix path
  if suffix == "" then none else t.byExtension.lookup (Language.normalize suffix)

/-- Look-up by extension or else by name or alias; a blank key finds nothing. -/
def resolve (t : Tables) (key : String) : Option Language :=
  let normal := Language.normalize key
  if normal == "" then none
  else (t.byExtension.lookup normal).orElse fun _ => t.byAlias.lookup normal

end Tables

end CodeChallenges.Registry

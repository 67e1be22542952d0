import CodeChallenges.Text.Quoted
/-!
The kinds of code that a challenge can be cut from, with the tag under which each is written.
-/

namespace CodeChallenges

/-- What a piece of code is. -/
inductive ChunkType where
  | function
  | method
  | classDecl
  | struct
  | enum
  | trait
  | interface
  | moduleDecl
  | namespaceDecl
  | typeAlias
  | variable
  | const
  | component
  | file
  | codeBlock
  | loop
  | conditional
  | errorHandling
  | specialBlock
  | comprehension
  | functionCall
  | lambda
  deriving DecidableEq, Repr

namespace ChunkType

/-- Every kind, in the order in which the kinds are declared. -/
def all : List ChunkType := [
  .function, .method, .classDecl, .struct, .enum, .trait, .interface, .moduleDecl,
  .namespaceDecl, .typeAlias, .variable, .const, .component, .file, .codeBlock, .loop,
  .conditional, .errorHandling, .specialBlock, .comprehension, .functionCall, .lambda]

/-- The tag of a kind in records and language tables. -/
def tag : ChunkType → String
  | .function => "function"
  | .method => "method"
  | .classDecl => "class"
  | .struct => "struct"
  | .enum => "enum"
  | .trait => "trait"
  | .interface => "interface"
  | .moduleDecl => "module"
  | .namespaceDecl => "namespace"
  | .typeAlias => "type_alias"
  | .variable => "variable"
  | .const => "const"
  | .component => "component"
  | .file => "file"
  | .codeBlock => "code_block"
  | .loop => "loop"
  | .conditional => "conditional"
  | .errorHandling => "error_handling"
  | .specialBlock => "special_block"
  | .comprehension => "comprehension"
  | .functionCall => "function_call"
  | .lambda => "lambda"

/-- The kind with a given tag. -/
def ofTag? (tag : String) : Option ChunkType :=
  all.find? (·.tag == tag)

/-- The message for a tag that no kind has. -/
def unknownTagMessage (tag : String) : String :=
  s!"{Text.quoted tag} is not a valid ChunkType"

end ChunkType

end CodeChallenges

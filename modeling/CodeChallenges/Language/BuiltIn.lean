import CodeChallenges.Registry
/-!
The languages that are known from the start.  Each definition is one language: its files, the
patterns of its structural code and of its blocks, and the node kinds of its comments and imports.
All of them rank kinds of code alike.
-/

namespace CodeChallenges.BuiltIn

/-- The common ranking: what a reader would call a piece of code comes before what it is built
of. -/
def priority : List ChunkType := [
  .method, .function, .lambda, .component, .classDecl, .struct, .enum, .trait, .interface,
  .typeAlias, .const, .variable, .namespaceDecl, .moduleDecl, .loop, .conditional, .errorHandling,
  .specialBlock, .comprehension, .functionCall, .codeBlock, .file]

/-- Rust. -/
def rust : Language := {
  name := "rust"
  displayName := "Rust"
  grammar := "rust"
  extensions := ["rs"]
  aliases := ["rs"]
  patterns := [
    "(function_item name: (identifier) @name) @function",
    "(impl_item body: (declaration_list (function_item name: (identifier) @name) @method))",
    "(trait_item body: (declaration_list (function_item name: (identifier) @name) @method))",
    "(impl_item type: (type_identifier) @name) @impl",
    "(struct_item name: (type_identifier) @name) @struct",
    "(enum_item name: (type_identifier) @name) @enum",
    "(trait_item name: (type_identifier) @name) @trait",
    "(mod_item name: (identifier) @name) @module",
    "(type_item name: (type_identifier) @name) @type_alias"]
  blockPatterns := [
    "(for_expression) @loop",
    "(while_expression) @loop",
    "(loop_expression) @loop",
    "(if_expression) @conditional",
    "(match_expression) @conditional",
    "(closure_expression) @lambda"]
  captures := [
    ("function", .function), ("method", .method), ("impl", .classDecl), ("struct", .struct),
    ("enum", .enum), ("trait", .trait), ("module", .moduleDecl), ("type_alias", .typeAlias),
    ("loop", .loop), ("conditional", .conditional), ("lambda", .lambda)]
  priority
  commentKinds := ["line_comment", "block_comment"]
  importKinds := ["use_declaration", "extern_crate_declaration"]
  color := "#dea584" }

/-- TypeScript. -/
def typescript : Language := {
  name := "typescript"
  displayName := "TypeScript"
  grammar := "typescript"
  extensions := ["ts", "mts", "cts"]
  aliases := ["ts"]
  patterns := [
    "(function_declaration name: (identifier) @name) @function",
    "(generator_function_declaration name: (identifier) @name) @function",
    "(method_definition name: (property_identifier) @name) @method",
    "(class_declaration name: (type_identifier) @name) @class",
    "(abstract_class_declaration name: (type_identifier) @name) @class",
    "(lexical_declaration (variable_declarator name: (identifier) @name value: [(arrow_function) (function_expression)])) @function",
    "(variable_declaration (variable_declarator name: (identifier) @name value: [(arrow_function) (function_expression)])) @function",
    "(interface_declaration name: (type_identifier) @name) @interface",
    "(type_alias_declaration name: (type_identifier) @name) @type_alias",
    "(enum_declaration name: (identifier) @name) @enum",
    "(internal_module name: (identifier) @name) @namespace"]
  blockPatterns := [
    "(for_statement) @loop",
    "(for_in_statement) @loop",
    "(while_statement) @loop",
    "(do_statement) @loop",
    "(if_statement) @conditional",
    "(switch_statement) @conditional",
    "(try_statement) @error_handling",
    "(arrow_function) @lambda"]
  captures := [
    ("function", .function), ("method", .method), ("class", .classDecl),
    ("interface", .interface), ("type_alias", .typeAlias), ("enum", .enum),
    ("namespace", .namespaceDecl), ("loop", .loop), ("conditional", .conditional),
    ("error_handling", .errorHandling), ("lambda", .lambda)]
  priority
  commentKinds := ["comment"]
  importKinds := ["import_statement"]
  color := "#3178c6" }

/-- TSX. -/
def tsx : Language := {
  name := "tsx"
  displayName := "TSX"
  grammar := "tsx"
  extensions := ["tsx"]
  aliases := []
  patterns := [
    "(function_declaration name: (identifier) @name) @function",
    "(method_definition name: (property_identifier) @name) @method",
    "(class_declaration name: (type_identifier) @name) @class",
    "(lexical_declaration (variable_declarator name: (identifier) @name value: [(arrow_function) (function_expression)])) @function",
    "(interface_declaration name: (type_identifier) @name) @interface",
    "(type_alias_declaration name: (type_identifier) @name) @type_alias",
    "(enum_declaration name: (identifier) @name) @enum",
    "(jsx_element open_tag: (jsx_opening_element name: (identifier) @name)) @component"]
  blockPatterns := [
    "(for_statement) @loop",
    "(for_in_statement) @loop",
    "(while_statement) @loop",
    "(if_statement) @conditional",
    "(switch_statement) @conditional",
    "(try_statement) @error_handling",
    "(arrow_function) @lambda"]
  captures := [
    ("function", .function), ("method", .method), ("class", .classDecl),
    ("interface", .interface), ("type_alias", .typeAlias), ("enum", .enum),
    ("component", .component), ("loop", .loop), ("conditional", .conditional),
    ("error_handling", .errorHandling), ("lambda", .lambda)]
  priority
  commentKinds := ["comment"]
  importKinds := ["import_statement"]
  color := "#3178c6" }

/-- JavaScript. -/
def javascript : Language := {
  name := "javascript"
  displayName := "JavaScript"
  grammar := "javascript"
  extensions := ["js", "jsx", "mjs", "cjs"]
  aliases := ["js", "node"]
  patterns := [
    "(function_declaration name: (identifier) @name) @function",
    "(generator_function_declaration name: (identifier) @name) @function",
    "(method_definition name: (property_identifier) @name) @method",
    "(class_declaration name: (identifier) @name) @class",
    "(lexical_declaration (variable_declarator name: (identifier) @name value: [(arrow_function) (function_expression)])) @function",
    "(variable_declaration (variable_declarator name: (identifier) @name value: [(arrow_function) (function_expression)])) @function",
    "(expression_statement (assignment_expression left: (member_expression property: (property_identifier) @name) right: [(function_expression) (arrow_function)])) @method",
    "(jsx_element open_tag: (jsx_opening_element name: (identifier) @name)) @component"]
  blockPatterns := [
    "(for_statement) @loop",
    "(for_in_statement) @loop",
    "(while_statement) @loop",
    "(do_statement) @loop",
    "(if_statement) @conditional",
    "(switch_statement) @conditional",
    "(try_statement) @error_handling",
    "(arrow_function) @lambda",
    "(function_expression) @lambda"]
  captures := [
    ("function", .function), ("method", .method), ("class", .classDecl),
    ("component", .component), ("loop", .loop), ("conditional", .conditional),
    ("error_handling", .errorHandling), ("lambda", .lambda)]
  priority
  commentKinds := ["comment"]
  importKinds := ["import_statement"]
  color := "#f1e05a" }

/-- Python. -/
def python : Language := {
  name := "python"
  displayName := "Python"
  grammar := "python"
  extensions := ["py", "pyw", "pyi"]
  aliases := ["py"]
  patterns := [
    "(function_definition name: (identifier) @name) @function",
    "(class_definition name: (identifier) @name) @class",
    "(class_definition body: (block (function_definition name: (identifier) @name) @method))",
    "(class_definition body: (block (decorated_definition definition: (function_definition name: (identifier) @name) @method)))"]
  blockPatterns := [
    "(for_statement) @loop",
    "(while_statement) @loop",
    "(if_statement) @conditional",
    "(try_statement) @error_handling",
    "(with_statement) @special_block",
    "(list_comprehension) @comprehension",
    "(dictionary_comprehension) @comprehension"]
  captures := [
    ("function", .function), ("method", .method), ("class", .classDecl), ("loop", .loop),
    ("conditional", .conditional), ("error_handling", .errorHandling),
    ("special_block", .specialBlock), ("comprehension", .comprehension)]
  priority
  commentKinds := ["comment"]
  importKinds := ["import_statement", "import_from_statement", "future_import_statement"]
  color := "#3572a5" }

/-- Ruby. -/
def ruby : Language := {
  name := "ruby"
  displayName := "Ruby"
  grammar := "ruby"
  extensions := ["rb", "rake", "gemspec"]
  aliases := ["rb"]
  patterns := [
    "(method name: (_) @name) @method",
    "(singleton_method name: (_) @name) @method",
    "(class name: (_) @name) @class",
    "(module name: (_) @name) @module"]
  blockPatterns := [
    "(for) @loop",
    "(while) @loop",
    "(until) @loop",
    "(if) @conditional",
    "(unless) @conditional",
    "(case) @conditional",
    "(begin) @error_handling",
    "(lambda) @lambda"]
  captures := [
    ("method", .method), ("class", .classDecl), ("module", .moduleDecl), ("loop", .loop),
    ("conditional", .conditional), ("error_handling", .errorHandling), ("lambda", .lambda)]
  priority
  commentKinds := ["comment"]
  importKinds := []
  color := "#701516" }

/-- Go. -/
def go : Language := {
  name := "go"
  displayName := "Go"
  grammar := "go"
  extensions := ["go"]
  aliases := ["golang"]
  patterns := [
    "(function_declaration name: (identifier) @name) @function",
    "(method_declaration name: (field_identifier) @name) @method",
    "(type_declaration (type_spec name: (type_identifier) @name type: (struct_type))) @struct",
    "(type_declaration (type_spec name: (type_identifier) @name type: (interface_type))) @interface",
    "(const_declaration) @const",
    "(var_declaration) @variable"]
  blockPatterns := [
    "(for_statement) @loop",
    "(if_statement) @conditional",
    "(expression_switch_statement) @conditional",
    "(type_switch_statement) @conditional",
    "(select_statement) @conditional",
    "(func_literal) @lambda"]
  captures := [
    ("function", .function), ("method", .method), ("struct", .struct),
    ("interface", .interface), ("const", .const), ("variable", .variable), ("loop", .loop),
    ("conditional", .conditional), ("lambda", .lambda)]
  priority
  commentKinds := ["comment"]
  importKinds := ["import_declaration", "package_clause"]
  color := "#00add8" }

/-- Swift. -/
def swift : Language := {
  name := "swift"
  displayName := "Swift"
  grammar := "swift"
  extensions := ["swift"]
  aliases := []
  patterns := [
    "(function_declaration) @function",
    "(class_body (function_declaration) @method)",
    "(init_declaration) @method",
    "(class_declaration) @class",
    "(protocol_declaration) @interface"]
  blockPatterns := [
    "(for_statement) @loop",
    "(while_statement) @loop",
    "(repeat_while_statement) @loop",
    "(if_statement) @conditional",
    "(guard_statement) @conditional",
    "(switch_statement) @conditional",
    "(do_statement) @error_handling",
    "(lambda_literal) @lambda"]
  captures := [
    ("function", .function), ("method", .method), ("class", .classDecl),
    ("interface", .interface), ("loop", .loop), ("conditional", .conditional),
    ("error_handling", .errorHandling), ("lambda", .lambda)]
  priority
  commentKinds := ["comment", "multiline_comment"]
  importKinds := ["import_declaration"]
  color := "#f05138" }

/-- Kotlin. -/
def kotlin : Language := {
  name := "kotlin"
  displayName := "Kotlin"
  grammar := "kotlin"
  extensions := ["kt", "kts"]
  aliases := ["kt"]
  patterns := [
    "(function_declaration) @function",
    "(class_body (function_declaration) @method)",
    "(class_declaration) @class",
    "(object_declaration) @class"]
  blockPatterns := [
    "(for_statement) @loop",
    "(while_statement) @loop",
    "(do_while_statement) @loop",
    "(if_expression) @conditional",
    "(when_expression) @conditional",
    "(try_expression) @error_handling",
    "(lambda_literal) @lambda"]
  captures := [
    ("function", .function), ("method", .method), ("class", .classDecl), ("loop", .loop),
    ("conditional", .conditional), ("error_handling", .errorHandling), ("lambda", .lambda)]
  priority
  commentKinds := ["comment", "line_comment", "multiline_comment", "block_comment"]
  importKinds := ["import_header", "import_list", "package_header", "import"]
  color := "#a97bff" }

/-- Java. -/
def java : Language := {
  name := "java"
  displayName := "Java"
  grammar := "java"
  extensions := ["java"]
  aliases := []
  patterns := [
    "(class_declaration name: (identifier) @name) @class",
    "(interface_declaration name: (identifier) @name) @interface",
    "(enum_declaration name: (identifier) @name) @enum",
    "(record_declaration name: (identifier) @name) @class",
    "(annotation_type_declaration name: (identifier) @name) @interface",
    "(method_declaration name: (identifier) @name) @method",
    "(constructor_declaration name: (identifier) @name) @method"]
  blockPatterns := [
    "(for_statement) @loop",
    "(enhanced_for_statement) @loop",
    "(while_statement) @loop",
    "(do_statement) @loop",
    "(if_statement) @conditional",
    "(switch_expression) @conditional",
    "(try_statement) @error_handling",
    "(try_with_resources_statement) @error_handling",
    "(lambda_expression) @lambda"]
  captures := [
    ("class", .classDecl), ("interface", .interface), ("enum", .enum), ("method", .method),
    ("loop", .loop), ("conditional", .conditional), ("error_handling", .errorHandling),
    ("lambda", .lambda)]
  priority
  commentKinds := ["line_comment", "block_comment"]
  importKinds := ["import_declaration", "package_declaration"]
  color := "#b07219" }

/-- PHP. -/
def php : Language := {
  name := "php"
  displayName := "PHP"
  grammar := "php"
  extensions := ["php", "phtml", "php3", "php4", "php5"]
  aliases := []
  patterns := [
    "(function_definition name: (name) @name) @function",
    "(method_declaration name: (name) @name) @method",
    "(class_declaration name: (name) @name) @class",
    "(interface_declaration name: (name) @name) @interface",
    "(trait_declaration name: (name) @name) @trait",
    "(enum_declaration name: (name) @name) @enum"]
  blockPatterns := [
    "(for_statement) @loop",
    "(foreach_statement) @loop",
    "(while_statement) @loop",
    "(if_statement) @conditional",
    "(switch_statement) @conditional",
    "(try_statement) @error_handling"]
  captures := [
    ("function", .function), ("method", .method), ("class", .classDecl),
    ("interface", .interface), ("trait", .trait), ("enum", .enum), ("loop", .loop),
    ("conditional", .conditional), ("error_handling", .errorHandling)]
  priority
  commentKinds := ["comment"]
  importKinds := ["namespace_use_declaration", "php_tag"]
  color := "#4f5d95" }

/-- C#. -/
def csharp : Language := {
  name := "csharp"
  displayName := "C#"
  grammar := "csharp"
  extensions := ["cs", "csx"]
  aliases := ["cs", "c#"]
  patterns := [
    "(class_declaration name: (identifier) @name) @class",
    "(struct_declaration name: (identifier) @name) @struct",
    "(interface_declaration name: (identifier) @name) @interface",
    "(enum_declaration name: (identifier) @name) @enum",
    "(record_declaration name: (identifier) @name) @class",
    "(method_declaration name: (identifier) @name) @method",
    "(constructor_declaration name: (identifier) @name) @method",
    "(destructor_declaration name: (identifier) @name) @method",
    "(property_declaration name: (identifier) @name) @variable",
    "(namespace_declaration name: (_) @name) @namespace"]
  blockPatterns := [
    "(for_statement) @loop",
    "(foreach_statement) @loop",
    "(while_statement) @loop",
    "(do_statement) @loop",
    "(if_statement) @conditional",
    "(switch_statement) @conditional",
    "(try_statement) @error_handling",
    "(lambda_expression) @lambda"]
  captures := [
    ("class", .classDecl), ("struct", .struct), ("interface", .interface), ("enum", .enum),
    ("method", .method), ("variable", .variable), ("namespace", .namespaceDecl), ("loop", .loop),
    ("conditional", .conditional), ("error_handling", .errorHandling), ("lambda", .lambda)]
  priority
  commentKinds := ["comment"]
  importKinds := ["using_directive", "extern_alias_directive"]
  color := "#178600" }

/-- C. -/
def c : Language := {
  name := "c"
  displayName := "C"
  grammar := "c"
  extensions := ["c", "h"]
  aliases := []
  patterns := [
    "(function_definition declarator: (function_declarator declarator: (identifier) @name)) @function",
    "(function_definition declarator: (pointer_declarator declarator: (function_declarator declarator: (identifier) @name))) @function",
    "(struct_specifier name: (type_identifier) @name body: (field_declaration_list)) @struct",
    "(union_specifier name: (type_identifier) @name body: (field_declaration_list)) @struct",
    "(enum_specifier name: (type_identifier) @name body: (enumerator_list)) @enum",
    "(type_definition declarator: (type_identifier) @name) @type_alias"]
  blockPatterns := [
    "(for_statement) @loop",
    "(while_statement) @loop",
    "(do_statement) @loop",
    "(if_statement) @conditional",
    "(switch_statement) @conditional"]
  captures := [
    ("function", .function), ("struct", .struct), ("enum", .enum), ("type_alias", .typeAlias),
    ("loop", .loop), ("conditional", .conditional)]
  priority
  commentKinds := ["comment"]
  importKinds := ["preproc_include"]
  color := "#555555" }

/-- C++. -/
def cpp : Language := {
  name := "cpp"
  displayName := "C++"
  grammar := "cpp"
  extensions := ["cpp", "cc", "cxx", "hpp", "hh", "hxx"]
  aliases := ["c++"]
  patterns := [
    "(function_definition declarator: (function_declarator declarator: (identifier) @name)) @function",
    "(function_definition declarator: (function_declarator declarator: (field_identifier) @name)) @method",
    "(function_definition declarator: (function_declarator declarator: (qualified_identifier) @name)) @method",
    "(class_specifier name: (type_identifier) @name body: (field_declaration_list)) @class",
    "(struct_specifier name: (type_identifier) @name body: (field_declaration_list)) @struct",
    "(enum_specifier name: (type_identifier) @name body: (enumerator_list)) @enum",
    "(namespace_definition name: (namespace_identifier) @name) @namespace"]
  blockPatterns := [
    "(for_statement) @loop",
    "(for_range_loop) @loop",
    "(while_statement) @loop",
    "(do_statement) @loop",
    "(if_statement) @conditional",
    "(switch_statement) @conditional",
    "(try_statement) @error_handling",
    "(lambda_expression) @lambda"]
  captures := [
    ("function", .function), ("method", .method), ("class", .classDecl), ("struct", .struct),
    ("enum", .enum), ("namespace", .namespaceDecl), ("loop", .loop),
    ("conditional", .conditional), ("error_handling", .errorHandling), ("lambda", .lambda)]
  priority
  commentKinds := ["comment"]
  importKinds := ["preproc_include", "using_declaration"]
  color := "#f34b7d" }

/-- Haskell. -/
def haskell : Language := {
  name := "haskell"
  displayName := "Haskell"
  grammar := "haskell"
  extensions := ["hs", "lhs"]
  aliases := ["hs"]
  patterns := [
    "(function) @function",
    "(data_type) @struct",
    "(newtype) @struct",
    "(class) @trait",
    "(instance) @class",
    "(type_synomym) @type_alias"]
  blockPatterns := [
    "(case) @conditional",
    "(conditional) @conditional",
    "(do) @code_block"]
  captures := [
    ("function", .function), ("struct", .struct), ("trait", .trait), ("class", .classDecl),
    ("type_alias", .typeAlias), ("conditional", .conditional), ("code_block", .codeBlock)]
  priority
  commentKinds := ["comment", "haddock", "pragma"]
  importKinds := ["import", "imports", "header"]
  color := "#5e5086" }

/-- Dart. -/
def dart : Language := {
  name := "dart"
  displayName := "Dart"
  grammar := "dart"
  extensions := ["dart"]
  aliases := []
  patterns := [
    "(class_definition (identifier) @name) @class",
    "(enum_declaration (identifier) @name) @enum",
    "(mixin_declaration (identifier) @name) @class",
    "(extension_declaration (identifier) @name) @class",
    "(method_signature (function_signature (identifier) @name)) @method",
    "(lambda_expression (function_signature (identifier) @name)) @function"]
  blockPatterns := [
    "(for_statement) @loop",
    "(while_statement) @loop",
    "(if_statement) @conditional",
    "(switch_statement) @conditional",
    "(try_statement) @error_handling"]
  captures := [
    ("class", .classDecl), ("enum", .enum), ("method", .method), ("function", .function),
    ("loop", .loop), ("conditional", .conditional), ("error_handling", .errorHandling)]
  priority
  commentKinds := ["comment", "documentation_comment"]
  importKinds := ["import_or_export", "library_name", "part_directive", "part_of_directive"]
  color := "#00b4ab" }

/-- Scala. -/
def scala : Language := {
  name := "scala"
  displayName := "Scala"
  grammar := "scala"
  extensions := ["scala", "sc"]
  aliases := []
  patterns := [
    "(function_definition name: (identifier) @name) @function",
    "(template_body (function_definition name: (identifier) @name) @method)",
    "(class_definition name: (identifier) @name) @class",
    "(object_definition name: (identifier) @name) @class",
    "(trait_definition name: (identifier) @name) @trait",
    "(enum_definition name: (identifier) @name) @enum"]
  blockPatterns := [
    "(for_expression) @loop",
    "(while_expression) @loop",
    "(if_expression) @conditional",
    "(match_expression) @conditional",
    "(try_expression) @error_handling",
    "(lambda_expression) @lambda"]
  captures := [
    ("function", .function), ("method", .method), ("class", .classDecl), ("trait", .trait),
    ("enum", .enum), ("loop", .loop), ("conditional", .conditional),
    ("error_handling", .errorHandling), ("lambda", .lambda)]
  priority
  commentKinds := ["comment", "block_comment"]
  importKinds := ["import_declaration"]
  color := "#c22d40" }

/-- Elixir. -/
def elixir : Language := {
  name := "elixir"
  displayName := "Elixir"
  grammar := "elixir"
  extensions := ["ex", "exs"]
  aliases := ["ex"]
  patterns := [
    "((call target: (identifier) @kw (arguments [(identifier) @name (call target: (identifier) @name) (binary_operator left: (call target: (identifier) @name))])) @function (#match? @kw \"^(def|defp|defmacro|defmacrop)$\"))",
    "((call target: (identifier) @kw (arguments (alias) @name)) @module (#eq? @kw \"defmodule\"))",
    "((call target: (identifier) @kw (arguments (alias) @name)) @interface (#eq? @kw \"defprotocol\"))",
    "((call target: (identifier) @kw (arguments (alias) @name)) @impl (#eq? @kw \"defimpl\"))"]
  blockPatterns := [
    "(anonymous_function) @lambda"]
  captures := [
    ("function", .function), ("module", .moduleDecl), ("interface", .interface), ("impl", .classDecl),
    ("lambda", .lambda)]
  priority
  commentKinds := ["comment"]
  importKinds := []
  color := "#6e4a7e" }

/-- Erlang. -/
def erlang : Language := {
  name := "erlang"
  displayName := "Erlang"
  grammar := "erlang"
  extensions := ["erl", "hrl"]
  aliases := ["erl"]
  patterns := [
    "(fun_decl) @function",
    "(record_decl) @struct",
    "(type_alias) @type_alias"]
  blockPatterns := [
    "(case_expr) @conditional",
    "(if_expr) @conditional",
    "(receive_expr) @code_block",
    "(try_expr) @error_handling",
    "(anonymous_fun) @lambda"]
  captures := [
    ("function", .function), ("struct", .struct), ("type_alias", .typeAlias),
    ("conditional", .conditional), ("code_block", .codeBlock),
    ("error_handling", .errorHandling), ("lambda", .lambda)]
  priority
  commentKinds := ["comment"]
  importKinds := [
    "module_attribute", "export_attribute", "behaviour_attribute", "import_attribute"]
  color := "#b83998" }

/-- Clojure. -/
def clojure : Language := {
  name := "clojure"
  displayName := "Clojure"
  grammar := "clojure"
  extensions := ["clj", "cljs", "cljc"]
  aliases := ["clj"]
  patterns := [
    "((list_lit . (sym_lit) @kw . (sym_lit) @name) @function (#match? @kw \"^(defn|defn-|defmacro|defmulti|defmethod)$\"))",
    "((list_lit . (sym_lit) @kw . (sym_lit) @name) @struct (#match? @kw \"^(defrecord|deftype)$\"))",
    "((list_lit . (sym_lit) @kw . (sym_lit) @name) @interface (#eq? @kw \"defprotocol\"))"]
  blockPatterns := []
  captures := [("function", .function), ("struct", .struct), ("interface", .interface)]
  priority
  commentKinds := ["comment"]
  importKinds := []
  color := "#db5855" }

/-- Zig. -/
def zig : Language := {
  name := "zig"
  displayName := "Zig"
  grammar := "zig"
  extensions := ["zig"]
  aliases := []
  patterns := [
    "(Decl (FnProto function: (IDENTIFIER) @name)) @function",
    "(TestDecl) @function",
    "(VarDecl variable_type_function: (IDENTIFIER) @name (_ (_ (ContainerDecl)))) @struct"]
  blockPatterns := [
    "(ForStatement) @loop",
    "(WhileStatement) @loop",
    "(IfStatement) @conditional",
    "(SwitchExpr) @conditional"]
  captures := [
    ("function", .function), ("struct", .struct), ("loop", .loop),
    ("conditional", .conditional)]
  priority
  commentKinds := ["line_comment", "doc_comment", "container_doc_comment"]
  importKinds := []
  color := "#ec915c" }

/-- All of them, in order of registration. -/
def languages : List Language := [
  rust, typescript, tsx, javascript, python, ruby, go, swift, kotlin, java, php, csharp, c, cpp,
  haskell, dart, scala, elixir, erlang, clojure, zig]

end CodeChallenges.BuiltIn

namespace CodeChallenges

/-- The registry at the start. -/
def Registry.builtIn : Registry :=
  ⟨BuiltIn.languages⟩

end CodeChallenges

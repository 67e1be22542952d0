/-!
The globs that leave paths out unless told otherwise: what builds, package managers and generators
leave behind.
-/

namespace CodeChallenges.Repository

/-- The globs, by what they keep out. -/
def defaultExcludes : List String := [
  -- build output
  "**/build/**",
  "**/dist/**",
  "**/target/**",
  "**/bin/**",
  "**/obj/**",
  -- dependencies
  "**/node_modules/**",
  "**/vendor/**",
  -- python
  "**/__pycache__/**",
  "**/*.pyc",
  "**/venv/**",
  "**/.venv/**",
  "**/env/**",
  -- javascript / typescript
  "**/.next/**",
  "**/.nuxt/**",
  "**/coverage/**",
  "**/.nyc_output/**",
  -- java / kotlin
  "**/*.class",
  "**/gradle/**",
  "**/.gradle/**",
  "**/buildSrc/**",
  "**/.m2/**",
  "**/.ivy2/**",
  -- ruby
  "**/bundle/**",
  "**/.bundle/**",
  -- swift
  "**/.build/**",
  "**/DerivedData/**",
  "**/Pods/**",
  "**/Carthage/**",
  -- nuget
  "**/packages.config",
  "**/packages/**/*.dll",
  "**/packages/**/*.pdb",
  "**/packages/**/*.xml",
  -- c / c++
  "**/*.o",
  "**/*.so",
  "**/*.a",
  "**/CMakeFiles/**",
  "**/cmake-build-*/**",
  "**/.vs/**",
  "**/x64/**",
  "**/x86/**",
  "**/Debug/**",
  "**/Release/**",
  -- dart
  "**/.dart_tool/**",
  -- haskell
  "**/.stack-work/**",
  "**/dist-newstyle/**",
  -- generated code
  "**/generated/**",
  "**/.generated/**",
  "**/gen/**",
  "**/codegen/**",
  "**/*_pb2.py",
  "**/*.pb.go",
  -- bazel
  "**/bazel-*/**",
  -- system and temporary files
  "**/.git/**",
  "**/tmp/**",
  "**/temp/**",
  "**/*.tmp",
  "**/cache/**",
  "**/.cache/**",
  "**/logs/**",
  "**/*.log",
  -- large generated test fixtures
  "**/colorize-fixtures/**",
  "**/perf-tests/**"]

end CodeChallenges.Repository

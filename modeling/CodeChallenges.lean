import CodeChallenges.BinaryContent
import CodeChallenges.BlankLines
import CodeChallenges.Candidates
import CodeChallenges.Challenge
import CodeChallenges.Challenge.OfChunk
import CodeChallenges.Chunk
import CodeChallenges.ChunkType
import CodeChallenges.CommandLine
import CodeChallenges.CommandLine.Arguments
import CodeChallenges.CommandLine.Usage
import CodeChallenges.Config
import CodeChallenges.Extraction.File
import CodeChallenges.Extraction.Pools
import CodeChallenges.Extraction.Run
import CodeChallenges.Extraction.Workers
import CodeChallenges.Glob.Pattern
import CodeChallenges.Glob.Piece
import CodeChallenges.Grammar
import CodeChallenges.Grammar.Pool
import CodeChallenges.Json
import CodeChallenges.Json.Reader
import CodeChallenges.Language
import CodeChallenges.Language.BuiltIn
import CodeChallenges.LineMap
import CodeChallenges.Log
import CodeChallenges.Main
import CodeChallenges.Names
import CodeChallenges.Options
import CodeChallenges.Path
import CodeChallenges.Proofs.BinaryContent
import CodeChallenges.Proofs.BlankLines
import CodeChallenges.Proofs.BlankLines.Composition
import CodeChallenges.Proofs.BlankLines.Lines
import CodeChallenges.Proofs.BlankLines.Runs
import CodeChallenges.Proofs.BlankLines.Shrinking
import CodeChallenges.Proofs.BlankLines.Within
import CodeChallenges.Proofs.Candidates
import CodeChallenges.Proofs.Candidates.Completion
import CodeChallenges.Proofs.Candidates.Gathered
import CodeChallenges.Proofs.Candidates.Methods
import CodeChallenges.Proofs.Candidates.Scope
import CodeChallenges.Proofs.Candidates.Structural
import CodeChallenges.Proofs.Challenge
import CodeChallenges.Proofs.Challenge.Boundaries
import CodeChallenges.Proofs.Challenge.Highlights
import CodeChallenges.Proofs.Challenge.Identity
import CodeChallenges.Proofs.Challenge.Records
import CodeChallenges.Proofs.CommandLine
import CodeChallenges.Proofs.Extraction.Accounting
import CodeChallenges.Proofs.Extraction.Additive
import CodeChallenges.Proofs.Extraction.Blocks
import CodeChallenges.Proofs.Extraction.Completion
import CodeChallenges.Proofs.Extraction.Delivery
import CodeChallenges.Proofs.Extraction.Faithful
import CodeChallenges.Proofs.Extraction.File
import CodeChallenges.Proofs.Extraction.Fingerprint
import CodeChallenges.Proofs.Extraction.Identity
import CodeChallenges.Proofs.Extraction.Nesting
import CodeChallenges.Proofs.Extraction.Order
import CodeChallenges.Proofs.Extraction.Pools
import CodeChallenges.Proofs.Extraction.Readiness
import CodeChallenges.Proofs.Extraction.Run
import CodeChallenges.Proofs.Extraction.Schedule
import CodeChallenges.Proofs.Extraction.Tally
import CodeChallenges.Proofs.Extraction.Workers
import CodeChallenges.Proofs.Gathering
import CodeChallenges.Proofs.Glob.BadRange
import CodeChallenges.Proofs.Grammar.Pool
import CodeChallenges.Proofs.Json
import CodeChallenges.Proofs.Language
import CodeChallenges.Proofs.LineMap
import CodeChallenges.Proofs.LineMap.LineStart
import CodeChallenges.Proofs.LineMap.Points
import CodeChallenges.Proofs.LineMap.Spans
import CodeChallenges.Proofs.Names
import CodeChallenges.Proofs.Outcome
import CodeChallenges.Proofs.Path
import CodeChallenges.Proofs.Registry
import CodeChallenges.Proofs.Registry.Extensions
import CodeChallenges.Proofs.Registry.History
import CodeChallenges.Proofs.Registry.OwnNames
import CodeChallenges.Proofs.Registry.Tables
import CodeChallenges.Proofs.Report
import CodeChallenges.Proofs.Repository.Coverage
import CodeChallenges.Proofs.Repository.Fallback
import CodeChallenges.Proofs.Repository.Fingerprint
import CodeChallenges.Proofs.Repository.Links
import CodeChallenges.Proofs.Repository.Opening
import CodeChallenges.Proofs.Repository.Pruning
import CodeChallenges.Proofs.Repository.Scan
import CodeChallenges.Proofs.Repository.Snapshot
import CodeChallenges.Proofs.Repository.Walk
import CodeChallenges.Proofs.Selection
import CodeChallenges.Proofs.Selection.Additions
import CodeChallenges.Proofs.Selection.Containment
import CodeChallenges.Proofs.Selection.Leading
import CodeChallenges.Proofs.Selection.Rearrangement
import CodeChallenges.Proofs.Selection.Reasons
import CodeChallenges.Proofs.Sorting
import CodeChallenges.Proofs.Text.Blank
import CodeChallenges.Proofs.Text.Decimal
import CodeChallenges.Proofs.Text.Utf8
import CodeChallenges.Proofs.Tree.Capture
import CodeChallenges.Proofs.Tree.ExtentLines
import CodeChallenges.Proofs.Tree.KindPattern
import CodeChallenges.Proofs.Tree.Nested
import CodeChallenges.Proofs.Tree.Outermost
import CodeChallenges.Proofs.Tree.Plain
import CodeChallenges.Regex
import CodeChallenges.Regex.Reader
import CodeChallenges.Registry
import CodeChallenges.Registry.Tables
import CodeChallenges.Report
import CodeChallenges.Repository.DefaultExcludes
import CodeChallenges.Repository.Fingerprint
import CodeChallenges.Repository.Git
import CodeChallenges.Repository.Scan
import CodeChallenges.Repository.Snapshot
import CodeChallenges.Selection
import CodeChallenges.Sha256
import CodeChallenges.Span
import CodeChallenges.Text.Blank
import CodeChallenges.Text.CodeRange
import CodeChallenges.Text.Digit
import CodeChallenges.Text.Hex
import CodeChallenges.Text.Integer
import CodeChallenges.Text.LetterCase
import CodeChallenges.Text.LetterCase.Table
import CodeChallenges.Text.Lines
import CodeChallenges.Text.Printable
import CodeChallenges.Text.Quoted
import CodeChallenges.Text.Utf8
import CodeChallenges.Text.Wrap
import CodeChallenges.Tree.Extent
import CodeChallenges.Tree.Extent.Visit
import CodeChallenges.Tree.Node
import CodeChallenges.Tree.Pattern
import CodeChallenges.Tree.Pattern.Reader

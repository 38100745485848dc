import DirectImports.Check
import DirectImports.Collection
import DirectImports.CommandLine.Arguments
import DirectImports.CommandLine.Command
import DirectImports.CommandLine.Run
import DirectImports.Configuration
import DirectImports.Failure
import DirectImports.FileSystem
import DirectImports.Fix
import DirectImports.Ignore.Glob
import DirectImports.Ignore.Rules
import DirectImports.Ignore.Walk
import DirectImports.Import.Declaration
import DirectImports.Import.Direct
import DirectImports.Import.Grammar
import DirectImports.Import.Source
import DirectImports.Json.Number
import DirectImports.Json.Problem
import DirectImports.Json.Reader
import DirectImports.Json.Record
import DirectImports.Json.Value
import DirectImports.Main
import DirectImports.Naming
import DirectImports.Notice
import DirectImports.Number.Binary
import DirectImports.Number.Shortest
import DirectImports.Options.Display
import DirectImports.Options.Reader
import DirectImports.Options.Schema
import DirectImports.Path
import DirectImports.Pattern
import DirectImports.Proofs.Agreement
import DirectImports.Proofs.Alike
import DirectImports.Proofs.BarrelReports
import DirectImports.Proofs.Boundary
import DirectImports.Proofs.BracedImport
import DirectImports.Proofs.ByteOrder
import DirectImports.Proofs.Casing
import DirectImports.Proofs.CheckPlan
import DirectImports.Proofs.Codes
import DirectImports.Proofs.CollapsedText
import DirectImports.Proofs.CollectedFiles
import DirectImports.Proofs.Convergence
import DirectImports.Proofs.DirectPath
import DirectImports.Proofs.DisplayPath
import DirectImports.Proofs.DryRun
import DirectImports.Proofs.Extensions
import DirectImports.Proofs.FailedPreparation
import DirectImports.Proofs.FileChecks
import DirectImports.Proofs.FilePath
import DirectImports.Proofs.FileTree
import DirectImports.Proofs.FirstMatch
import DirectImports.Proofs.FixOrder
import DirectImports.Proofs.FixRefusal
import DirectImports.Proofs.Fixing
import DirectImports.Proofs.Hyphenation
import DirectImports.Proofs.ImportStart
import DirectImports.Proofs.JsonRecords
import DirectImports.Proofs.JsonText
import DirectImports.Proofs.KeptStatements
import DirectImports.Proofs.Lexemes
import DirectImports.Proofs.LineColumn
import DirectImports.Proofs.LoadedOptions
import DirectImports.Proofs.Lookahead
import DirectImports.Proofs.ModulePath
import DirectImports.Proofs.OptionsRefusal
import DirectImports.Proofs.OptionsText
import DirectImports.Proofs.OptionsTree
import DirectImports.Proofs.Overwriting
import DirectImports.Proofs.PathComponents
import DirectImports.Proofs.PathOrder
import DirectImports.Proofs.Pieces
import DirectImports.Proofs.PositionOrder
import DirectImports.Proofs.Preparation
import DirectImports.Proofs.PrintedImports
import DirectImports.Proofs.Printing
import DirectImports.Proofs.ProjectFiles
import DirectImports.Proofs.Quoting
import DirectImports.Proofs.Readability
import DirectImports.Proofs.Reading
import DirectImports.Proofs.RecordWriting
import DirectImports.Proofs.Relocation
import DirectImports.Proofs.Rereading
import DirectImports.Proofs.RunTotals
import DirectImports.Proofs.Schedule
import DirectImports.Proofs.SchemaAgreement
import DirectImports.Proofs.SchemaValidation
import DirectImports.Proofs.Selection
import DirectImports.Proofs.Separation
import DirectImports.Proofs.Shape
import DirectImports.Proofs.SharedGrammar
import DirectImports.Proofs.Sorting
import DirectImports.Proofs.SourceCheck
import DirectImports.Proofs.Spans
import DirectImports.Proofs.Spelling
import DirectImports.Proofs.Splice
import DirectImports.Proofs.StatementStarts
import DirectImports.Proofs.Substitution
import DirectImports.Proofs.Token
import DirectImports.Proofs.TreeLines
import DirectImports.Proofs.Trivia
import DirectImports.Proofs.WarningOrder
import DirectImports.Proofs.WarningTree
import DirectImports.Proofs.WordsAndLines
import DirectImports.Proofs.Work
import DirectImports.Proofs.Written
import DirectImports.Report
import DirectImports.Rule
import DirectImports.Source.Arrow
import DirectImports.Source.Code
import DirectImports.Source.Control
import DirectImports.Source.Declaration
import DirectImports.Source.Element
import DirectImports.Source.Export
import DirectImports.Source.Expression
import DirectImports.Source.Function
import DirectImports.Source.Horizon
import DirectImports.Source.Language
import DirectImports.Source.Lexeme
import DirectImports.Source.Mark
import DirectImports.Source.Modifier
import DirectImports.Source.Operand
import DirectImports.Source.Pattern
import DirectImports.Source.Reader
import DirectImports.Source.Statement
import DirectImports.Source.StringLiteral
import DirectImports.Source.Token
import DirectImports.Source.Trivia
import DirectImports.Source.Type
import DirectImports.Source.Variable
import DirectImports.Source.Word
import DirectImports.Text.Basic
import DirectImports.Text.Blank
import DirectImports.Text.Digits
import DirectImports.Text.Position
import DirectImports.Text.Quoted
import DirectImports.Text.Search
import DirectImports.Unicode.Identifier
import DirectImports.Unicode.Printable
import DirectImports.Unicode.Ranges

import JavaStubs.Command.Arguments
import JavaStubs.Command.Run
import JavaStubs.Cursor
import JavaStubs.Decimal.Binary
import JavaStubs.Decimal.Nearest
import JavaStubs.Decimal.Shortest
import JavaStubs.Decimal.Style
import JavaStubs.Files.Disk
import JavaStubs.Files.Listing
import JavaStubs.Files.Path
import JavaStubs.Files.Tree
import JavaStubs.Input.Config
import JavaStubs.Input.Files
import JavaStubs.Input.ModelText
import JavaStubs.Json.Decode
import JavaStubs.Json.Flaw
import JavaStubs.Json.Number
import JavaStubs.Json.Text
import JavaStubs.Json.Tree
import JavaStubs.Json.Value
import JavaStubs.Layout
import JavaStubs.Main
import JavaStubs.Model.Declaration
import JavaStubs.Model.Decode
import JavaStubs.Model.Encode
import JavaStubs.Model.Expression
import JavaStubs.Model.Index
import JavaStubs.Model.Modifiers
import JavaStubs.Model.Types
import JavaStubs.Model.Unit
import JavaStubs.Names
import JavaStubs.Normalization.Capture
import JavaStubs.Normalization.Overloads
import JavaStubs.Normalization.Policy
import JavaStubs.Normalization.Standard
import JavaStubs.Report.Output
import JavaStubs.Report.Reports
import JavaStubs.Shape
import JavaStubs.Source.Balance
import JavaStubs.Source.Imports
import JavaStubs.Source.LiteralText
import JavaStubs.Source.Member
import JavaStubs.Source.TypeText
import JavaStubs.Stubs.Delegation
import JavaStubs.Stubs.Generator
import JavaStubs.Stubs.Operations
import JavaStubs.Stubs.Printer
import JavaStubs.Stubs.Registry
import JavaStubs.Stubs.StubFile
import JavaStubs.Table
import JavaStubs.Text.Blank
import JavaStubs.Text.Digit
import JavaStubs.Text.Letter
import JavaStubs.Text.Location
import JavaStubs.Text.Mark
import JavaStubs.Text.Numeral
import JavaStubs.Text.Printable
import JavaStubs.Text.Quoted
import JavaStubs.Text.Ranges
import JavaStubs.Text.Split
import JavaStubs.Text.Units
import JavaStubs.Text.Uppercase
import JavaStubs.Toml.Decode
import JavaStubs.Toml.Document
import JavaStubs.Toml.Members
import JavaStubs.Toml.Moment
import JavaStubs.Toml.Number
import JavaStubs.Toml.Reading
import JavaStubs.Toml.Text
import JavaStubs.Toml.Value
import JavaStubs.Proofs.Printing
import JavaStubs.Proofs.TreeUses
import JavaStubs.Proofs.Foreign
import JavaStubs.Proofs.MadeMembers
import JavaStubs.Proofs.MemberText
import JavaStubs.Proofs.LiteralText
import JavaStubs.Proofs.Grouping
import JavaStubs.Proofs.LineText
import JavaStubs.Proofs.BraceGroups
import JavaStubs.Proofs.ShownCalls
import JavaStubs.Proofs.NestedText
import JavaStubs.Proofs.ShownTree
import JavaStubs.Proofs.TypeVariables
import JavaStubs.Proofs.Scopes
import JavaStubs.Proofs.PathText
import JavaStubs.Proofs.StubPaths
import JavaStubs.Proofs.FileWalk
import JavaStubs.Proofs.FileChanges
import JavaStubs.Proofs.FileRemoval
import JavaStubs.Proofs.Outcomes
import JavaStubs.Proofs.GeneratedFiles
import JavaStubs.Proofs.StubRemoval
import JavaStubs.Proofs.CleanedFiles
import JavaStubs.Proofs.BalancedStubs
import JavaStubs.Proofs.Signatures
import JavaStubs.Proofs.DistinctMembers
import JavaStubs.Proofs.IndexLookup
import JavaStubs.Proofs.RecordedClasses
import JavaStubs.Proofs.BodilessMethods
import JavaStubs.Proofs.FittingCalls
import JavaStubs.Proofs.FaultyDisk
import JavaStubs.Proofs.FaultyWrites
import JavaStubs.Proofs.GeneratorHistory
import JavaStubs.Proofs.OutputPaths
import JavaStubs.Proofs.OutputBounds
import JavaStubs.Proofs.ClearWays
import JavaStubs.Proofs.MadeDirectories
import JavaStubs.Proofs.DirectoryPlaces
import JavaStubs.Proofs.Writability
import JavaStubs.Proofs.SeparateClasses
import JavaStubs.Proofs.NumberText
import JavaStubs.Proofs.ModifierText
import JavaStubs.Proofs.JsonText
import JavaStubs.Proofs.Trimming
import JavaStubs.Proofs.Recovery
import JavaStubs.Proofs.ModelRecovery
import JavaStubs.Proofs.WrittenModels
import JavaStubs.Proofs.SuperClasses
import JavaStubs.Proofs.Rewriting
import JavaStubs.Proofs.RewrittenText
import JavaStubs.Proofs.ErasedStubs
import JavaStubs.Proofs.StubPlacement
import JavaStubs.Proofs.RepeatedWrites
import JavaStubs.Proofs.Deferral
import JavaStubs.Proofs.DroppedDefaults
import JavaStubs.Proofs.OverloadCalls
import JavaStubs.Proofs.ThrownExceptions
import JavaStubs.Proofs.LiteralReading
import JavaStubs.Proofs.LiteralMeaning
import JavaStubs.Proofs.RepeatedVisits
import JavaStubs.Proofs.MatchingPaths
import JavaStubs.Proofs.NormalTypes
import JavaStubs.Proofs.TypeReading
import JavaStubs.Proofs.LostEntries
import JavaStubs.Proofs.FaultyRemoval
import JavaStubs.Proofs.CleaningRuns
import JavaStubs.Proofs.PrunedDirectories
import JavaStubs.Proofs.StubsApart
import JavaStubs.Proofs.LinesAndColumns
import JavaStubs.Proofs.ReadingPlaces
import JavaStubs.Proofs.ProblemPlaces
import JavaStubs.Proofs.FaultPlaces

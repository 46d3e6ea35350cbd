import StagedMapping.CommandLine
import StagedMapping.Digest
import StagedMapping.Discovery
import StagedMapping.Emission
import StagedMapping.Main
import StagedMapping.Mapper
import StagedMapping.Name
import StagedMapping.Number.FloatReader
import StagedMapping.Number.FloatText
import StagedMapping.Pass
import StagedMapping.Source.Expr.Printer
import StagedMapping.Source.Lexer
import StagedMapping.Source.Listing
import StagedMapping.Source.Module.Parser
import StagedMapping.Source.Module.Printer
import StagedMapping.Staging
import StagedMapping.Text.Blank
import StagedMapping.Text.Case
import StagedMapping.Text.Quoted
import StagedMapping.Text.Search
import StagedMapping.Text.Word
import StagedMapping.Vocabulary.Builtin
import StagedMapping.Vocabulary.BuiltinType
import StagedMapping.Vocabulary.Convention
import StagedMapping.Vocabulary.ReservedWord
import StagedMapping.Proofs.Evaluation
import StagedMapping.Proofs.Classification
import StagedMapping.Proofs.LoweringScope
import StagedMapping.Proofs.BoundScope
import StagedMapping.Proofs.DirectEvaluation
import StagedMapping.Proofs.LoweredRuns
import StagedMapping.Proofs.Footprint
import StagedMapping.Proofs.OutOfOrder
import StagedMapping.Proofs.PlanContents
import StagedMapping.Proofs.Reordering
import StagedMapping.Proofs.ScopeSafety
import StagedMapping.Proofs.WrittenOrder
import StagedMapping.Proofs.Occurrence
import StagedMapping.Proofs.Partition
import StagedMapping.Proofs.SingleUse
import StagedMapping.Proofs.Surfaces
import StagedMapping.Proofs.TokenView
import StagedMapping.Proofs.Scanning
import StagedMapping.Proofs.LiteralText
import StagedMapping.Proofs.ExprText
import StagedMapping.Proofs.CursorReading
import StagedMapping.Proofs.ExprReading
import StagedMapping.Proofs.ParsedShape
import StagedMapping.Proofs.RoundTrip
import StagedMapping.Proofs.Agreement
import StagedMapping.Proofs.PlanSteps
import StagedMapping.Proofs.RejectedFactory
import StagedMapping.Proofs.Renumbering
import StagedMapping.Proofs.RequestOrder
import StagedMapping.Proofs.EmissionOrder
import StagedMapping.Proofs.InputOrder
import StagedMapping.Proofs.Identifiers
import StagedMapping.Proofs.ParsedNames
import StagedMapping.Proofs.EmittedTree
import StagedMapping.Proofs.KnownNames
import StagedMapping.Proofs.ItemNames
import StagedMapping.Proofs.TypeSpelling
import StagedMapping.Proofs.DefaultProjection
import StagedMapping.Proofs.Overloads
import StagedMapping.Proofs.TypeIndependence
import StagedMapping.Proofs.WrittenTypes
import StagedMapping.Proofs.TokenPlaces
import StagedMapping.Proofs.TokenLayout
import StagedMapping.Proofs.FloatBits
import StagedMapping.Proofs.FloatSign
import StagedMapping.Proofs.ShortestDigits
import StagedMapping.Proofs.Numerals
import StagedMapping.Proofs.AtomText
import StagedMapping.Proofs.TreeText
import StagedMapping.Proofs.UniqueText
import StagedMapping.Proofs.TreeReading
import StagedMapping.Proofs.FactoryNames
import StagedMapping.Proofs.WrittenTrees
import StagedMapping.Proofs.SharedText
import StagedMapping.Proofs.BracketedCode
import StagedMapping.Proofs.PlanPhrases
import StagedMapping.Proofs.EmbeddedPlan
import StagedMapping.Proofs.SyntaxSpans
import StagedMapping.Proofs.Passages
import StagedMapping.Proofs.ParsedSpans
import StagedMapping.Proofs.ModuleSpans
import StagedMapping.Proofs.DiagnosticSpans
import StagedMapping.Proofs.ReportedPlaces
import StagedMapping.Proofs.CarriedSource
import StagedMapping.Proofs.OmittedArguments
import StagedMapping.Proofs.DeclaredFloats
import StagedMapping.Proofs.RoundedIntegers
import StagedMapping.Proofs.IntegerComparison
import StagedMapping.Proofs.ExactIntegers
import StagedMapping.Proofs.InferredTypes
import StagedMapping.Proofs.NestedConstruction
import StagedMapping.Proofs.StringText
import StagedMapping.Proofs.LineSteps
import StagedMapping.Proofs.BlankLines
import StagedMapping.Proofs.ParsedGrouping
import StagedMapping.Proofs.Outline
import StagedMapping.Proofs.SyntaxOutlines
import StagedMapping.Proofs.DeclarationRounds
import StagedMapping.Proofs.ResolvedTypes
import StagedMapping.Proofs.AskedRequests
import StagedMapping.Proofs.SilentDecorators
import StagedMapping.Proofs.TypeReading
import StagedMapping.Proofs.TypedValues
import StagedMapping.Proofs.TypedResults
import StagedMapping.Proofs.WellFormedValues
import StagedMapping.Proofs.WellFormedResults
import StagedMapping.Proofs.Substitution
import StagedMapping.Proofs.LoweredReads
import StagedMapping.Proofs.FunctionParameters
import StagedMapping.Proofs.RelativePaths
import StagedMapping.Proofs.FreshNames
import StagedMapping.Proofs.LineOffsets

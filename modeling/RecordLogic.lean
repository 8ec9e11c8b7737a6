import RecordLogic.Main
import RecordLogic.Engine.Rule
import RecordLogic.Proofs.ParserSteps
import RecordLogic.Proofs.ParserSound
import RecordLogic.Proofs.ParserExact
import RecordLogic.Proofs.Outcome
import RecordLogic.Proofs.Shape
import RecordLogic.Proofs.Evaluation
import RecordLogic.Proofs.RecordSound
import RecordLogic.Proofs.TypeSound
import RecordLogic.Proofs.Noninterference
import RecordLogic.Proofs.CacheRun
import RecordLogic.Proofs.ScannerLossless
import RecordLogic.Proofs.Contexts
import RecordLogic.Proofs.Depth
import RecordLogic.Proofs.Interchange
import RecordLogic.Proofs.NormalForm
import RecordLogic.Proofs.PathReads
import RecordLogic.Proofs.CallOrder
import RecordLogic.Proofs.OperandOrder
import RecordLogic.Proofs.Comparison
import RecordLogic.Proofs.LetterCase
import RecordLogic.Proofs.Registration
import RecordLogic.Proofs.IntegralBounds
import RecordLogic.Proofs.Lexemes
import RecordLogic.Proofs.Sites
import RecordLogic.Proofs.Diagnostics
import RecordLogic.Proofs.ParserFailures
import RecordLogic.Proofs.ViablePrefix
import RecordLogic.Proofs.EndMark
import RecordLogic.Proofs.ModularArithmetic
import RecordLogic.Proofs.NegatedLiterals
import RecordLogic.Proofs.Clashes
import RecordLogic.Proofs.Dependencies
import RecordLogic.Proofs.DecimalShifts
import RecordLogic.Proofs.DecimalReading
import RecordLogic.Proofs.DecimalRounding
import RecordLogic.Proofs.DecimalLiterals
import RecordLogic.Proofs.Descriptors
import RecordLogic.Proofs.CacheCounts
import RecordLogic.Proofs.Targets
import RecordLogic.Proofs.Verdicts
import RecordLogic.Proofs.Conformance
import RecordLogic.Proofs.JsonRecords
import RecordLogic.Proofs.TypeNames
import RecordLogic.Proofs.SpanTexts
import RecordLogic.Proofs.Enumerations
import RecordLogic.Proofs.SpansOfParts
import RecordLogic.Proofs.TextTests
import RecordLogic.Proofs.Extremes
import RecordLogic.Proofs.Patterns
import RecordLogic.Proofs.DoubleRange
import RecordLogic.Proofs.NumberTexts
import RecordLogic.Proofs.Collisions

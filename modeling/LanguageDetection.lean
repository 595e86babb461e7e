import LanguageDetection.CommandLine.Session
import LanguageDetection.Json.Reader
import LanguageDetection.Main
import LanguageDetection.Proofs.Characters
import LanguageDetection.Proofs.Catalog
import LanguageDetection.Proofs.Sorting
import LanguageDetection.Proofs.Features
import LanguageDetection.Proofs.Ranking
import LanguageDetection.Proofs.Text
import LanguageDetection.Proofs.Candidate
import LanguageDetection.Proofs.Outcome
import LanguageDetection.Proofs.Acceptance
import LanguageDetection.Proofs.ExtensionHint
import LanguageDetection.Proofs.Pattern.Ends
import LanguageDetection.Proofs.Pattern.Search
import LanguageDetection.Proofs.Pattern.Count
import LanguageDetection.Proofs.RuleScore
import LanguageDetection.Proofs.Standing
import LanguageDetection.Proofs.Dialects.TypeScript
import LanguageDetection.Proofs.Dialects.Cpp
import LanguageDetection.Proofs.HintStrength
import LanguageDetection.Proofs.Pattern.LineEnding
import LanguageDetection.Proofs.LineEnding
import LanguageDetection.Proofs.Envelope
import LanguageDetection.Proofs.Apportionment
import LanguageDetection.Proofs.RunnerUp
import LanguageDetection.Proofs.HintVerdict
import LanguageDetection.Proofs.Dialects.PlainJavaScript
import LanguageDetection.Proofs.Tolerance
import LanguageDetection.Proofs.Report.Styled
import LanguageDetection.Proofs.Report.Colour
import LanguageDetection.Proofs.ThresholdInfluence
import LanguageDetection.Proofs.FloatingPoint.Rounding
import LanguageDetection.Proofs.FloatingPoint.Order
import LanguageDetection.Proofs.FloatingPoint.Arithmetic
import LanguageDetection.Proofs.FloatingPoint.Scalar
import LanguageDetection.Proofs.Settings.Loading
import LanguageDetection.Proofs.Files.Path
import LanguageDetection.Proofs.Files.Tree
import LanguageDetection.Proofs.Settings.Discovery
import LanguageDetection.Proofs.Sources
import LanguageDetection.Proofs.Pattern.Literal
import LanguageDetection.Proofs.MarkerCount
import LanguageDetection.Proofs.CommandLine
import LanguageDetection.Proofs.Strictness
import LanguageDetection.Proofs.Session
import LanguageDetection.Proofs.Decimal.Literal
import LanguageDetection.Proofs.Json.RoundTrip
import LanguageDetection.Proofs.Decimal.Layout
import LanguageDetection.Proofs.FloatingPoint.Bits
import LanguageDetection.Proofs.Decimal.ReadBack
import LanguageDetection.Proofs.Decimal.Shortest
import LanguageDetection.Proofs.Report.Document
import LanguageDetection.Proofs.Pattern.Spans
import LanguageDetection.Proofs.Text.Tokenization
import LanguageDetection.Proofs.Explanation
import LanguageDetection.Proofs.LetterCase
import LanguageDetection.Proofs.Names
import LanguageDetection.Proofs.Prose
import LanguageDetection.Proofs.ErrorContext
import LanguageDetection.Proofs.ScoreBound
import LanguageDetection.Proofs.FloatingPoint.Signed
import LanguageDetection.Proofs.FloatingPoint.Value
import LanguageDetection.Proofs.FloatingPoint.Features
import LanguageDetection.Proofs.FloatingPoint.Ranking
import LanguageDetection.Proofs.FloatingPoint.Verdict

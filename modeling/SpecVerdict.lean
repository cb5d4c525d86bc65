import SpecVerdict.CommandLine.Arguments
import SpecVerdict.CommandLine.Run
import SpecVerdict.Config.Basic
import SpecVerdict.Config.EnvFile
import SpecVerdict.Config.Load
import SpecVerdict.Config.Overlay
import SpecVerdict.Config.Readers
import SpecVerdict.Config.Value
import SpecVerdict.Correlation.Candidate
import SpecVerdict.Correlation.Engine
import SpecVerdict.Correlation.Fault
import SpecVerdict.Correlation.FeatureSearch
import SpecVerdict.Correlation.Rows
import SpecVerdict.Correlation.ScenarioMatch
import SpecVerdict.Correlation.Settings
import SpecVerdict.Correlation.Steps
import SpecVerdict.Decimal.Binary64
import SpecVerdict.Decimal.Parser
import SpecVerdict.Decimal.Power
import SpecVerdict.Decimal.Printer
import SpecVerdict.Document.Basic
import SpecVerdict.Document.Json
import SpecVerdict.Document.Statistics
import SpecVerdict.Document.Tally
import SpecVerdict.Files.Content
import SpecVerdict.Files.Disk
import SpecVerdict.Files.Path
import SpecVerdict.Files.Pattern
import SpecVerdict.Files.Tree
import SpecVerdict.Gherkin.Batch
import SpecVerdict.Gherkin.Dialect
import SpecVerdict.Gherkin.Feature
import SpecVerdict.Gherkin.Lexer
import SpecVerdict.Gherkin.OpenFeature
import SpecVerdict.Gherkin.ParseError
import SpecVerdict.Gherkin.Parser
import SpecVerdict.Gherkin.Row
import SpecVerdict.Gherkin.TagFilter
import SpecVerdict.Gherkin.Token
import SpecVerdict.Json.Basic
import SpecVerdict.Json.Inline
import SpecVerdict.Json.Layout
import SpecVerdict.Json.Parser
import SpecVerdict.Json.Printer
import SpecVerdict.Keyed
import SpecVerdict.LogLine
import SpecVerdict.Main
import SpecVerdict.Name.Cache
import SpecVerdict.Name.Normal
import SpecVerdict.Name.Parts
import SpecVerdict.Proofs.AppendedProlog
import SpecVerdict.Proofs.AppendedText
import SpecVerdict.Proofs.AttachedOnce
import SpecVerdict.Proofs.BackgroundSteps
import SpecVerdict.Proofs.BareFeature
import SpecVerdict.Proofs.BlankedComments
import SpecVerdict.Proofs.ChunkedReading
import SpecVerdict.Proofs.ConfigFaults
import SpecVerdict.Proofs.ContinuedNames
import SpecVerdict.Proofs.CoveredLines
import SpecVerdict.Proofs.CucumberForm
import SpecVerdict.Proofs.CucumberReading
import SpecVerdict.Proofs.DecimalNumerals
import SpecVerdict.Proofs.DetectedBlocks
import SpecVerdict.Proofs.DistinctKeys
import SpecVerdict.Proofs.DocStringBlocks
import SpecVerdict.Proofs.DocumentStart
import SpecVerdict.Proofs.DocumentTotals
import SpecVerdict.Proofs.DoubleRange
import SpecVerdict.Proofs.EscapedDocStrings
import SpecVerdict.Proofs.ExecutedScenarios
import SpecVerdict.Proofs.FeatureAcceptance
import SpecVerdict.Proofs.FeatureGrammar
import SpecVerdict.Proofs.FeaturePairs
import SpecVerdict.Proofs.FeatureRejection
import SpecVerdict.Proofs.FilledVariables
import SpecVerdict.Proofs.FirstClaimant
import SpecVerdict.Proofs.FirstSeenOrder
import SpecVerdict.Proofs.FixtureResults
import SpecVerdict.Proofs.FlattenedFeature
import SpecVerdict.Proofs.HeldRows
import SpecVerdict.Proofs.IndentedText
import SpecVerdict.Proofs.KeptRows
import SpecVerdict.Proofs.KeyedGroups
import SpecVerdict.Proofs.KnownRows
import SpecVerdict.Proofs.LanguageSteps
import SpecVerdict.Proofs.LastUses
import SpecVerdict.Proofs.LatestResult
import SpecVerdict.Proofs.LayeredSettings
import SpecVerdict.Proofs.LeadingCharacters
import SpecVerdict.Proofs.LongestKeyword
import SpecVerdict.Proofs.LookupTuning
import SpecVerdict.Proofs.LowerCase
import SpecVerdict.Proofs.MatchTiers
import SpecVerdict.Proofs.MatchedDocument
import SpecVerdict.Proofs.MergeRegrouping
import SpecVerdict.Proofs.MergedAgain
import SpecVerdict.Proofs.MergedFeatures
import SpecVerdict.Proofs.MergedRows
import SpecVerdict.Proofs.NameArguments
import SpecVerdict.Proofs.NamedResults
import SpecVerdict.Proofs.NewestResult
import SpecVerdict.Proofs.NormalForms
import SpecVerdict.Proofs.NumberedRows
import SpecVerdict.Proofs.OpenBlocks
import SpecVerdict.Proofs.OpenGroups
import SpecVerdict.Proofs.OpenScenarios
import SpecVerdict.Proofs.OpenSections
import SpecVerdict.Proofs.OpenSteps
import SpecVerdict.Proofs.OrderedRows
import SpecVerdict.Proofs.Outcomes
import SpecVerdict.Proofs.OutlineRows
import SpecVerdict.Proofs.PaddedNumbers
import SpecVerdict.Proofs.ParsedBatch
import SpecVerdict.Proofs.PlainLines
import SpecVerdict.Proofs.PlainReports
import SpecVerdict.Proofs.QuotedValues
import SpecVerdict.Proofs.ReadingGroups
import SpecVerdict.Proofs.RecentNames
import SpecVerdict.Proofs.RememberedNames
import SpecVerdict.Proofs.RenamedRows
import SpecVerdict.Proofs.ReplacedPieces
import SpecVerdict.Proofs.ReportOverflow
import SpecVerdict.Proofs.ReportPlaces
import SpecVerdict.Proofs.ReportResults
import SpecVerdict.Proofs.ResultTurns
import SpecVerdict.Proofs.RootDetection
import SpecVerdict.Proofs.RowAssignment
import SpecVerdict.Proofs.RowChoice
import SpecVerdict.Proofs.RowIds
import SpecVerdict.Proofs.RowPlaces
import SpecVerdict.Proofs.RowsByValues
import SpecVerdict.Proofs.SameValue
import SpecVerdict.Proofs.ScenarioKeys
import SpecVerdict.Proofs.ScenarioRows
import SpecVerdict.Proofs.SharedMappings
import SpecVerdict.Proofs.SharedNames
import SpecVerdict.Proofs.SingleReport
import SpecVerdict.Proofs.SkippedReports
import SpecVerdict.Proofs.StepTurns
import SpecVerdict.Proofs.SuiteResults
import SpecVerdict.Proofs.TableRows
import SpecVerdict.Proofs.TagSelection
import SpecVerdict.Proofs.TextLines
import SpecVerdict.Proofs.TextPieces
import SpecVerdict.Proofs.TimeSpellings
import SpecVerdict.Proofs.TokenGroups
import SpecVerdict.Proofs.TracedSteps
import SpecVerdict.Proofs.WrittenTimes
import SpecVerdict.Proofs.XmlPlaces
import SpecVerdict.Report.Basic
import SpecVerdict.Report.Console
import SpecVerdict.Report.Cucumber
import SpecVerdict.Report.Detection
import SpecVerdict.Report.Fault
import SpecVerdict.Report.Format
import SpecVerdict.Report.Junit
import SpecVerdict.Report.Load
import SpecVerdict.Report.Merge
import SpecVerdict.Report.Nunit2
import SpecVerdict.Report.Nunit3
import SpecVerdict.Report.Reader
import SpecVerdict.Report.RowMark
import SpecVerdict.Report.RowOrder
import SpecVerdict.Report.Statistics
import SpecVerdict.Report.Status
import SpecVerdict.Report.TestCase
import SpecVerdict.Report.Trx
import SpecVerdict.Report.Xunit
import SpecVerdict.Session
import SpecVerdict.Text.Basic
import SpecVerdict.Text.CaseTable
import SpecVerdict.Text.Lines
import SpecVerdict.Text.Lower
import SpecVerdict.Text.Number
import SpecVerdict.Text.PrintTable
import SpecVerdict.Text.Upper
import SpecVerdict.Text.WordTable
import SpecVerdict.Time.Calendar
import SpecVerdict.Time.Timestamp
import SpecVerdict.Xml.Arrival
import SpecVerdict.Xml.Doctype
import SpecVerdict.Xml.Entity
import SpecVerdict.Xml.Name
import SpecVerdict.Xml.NameTable
import SpecVerdict.Xml.Node
import SpecVerdict.Xml.Prolog
import SpecVerdict.Xml.Reader
import SpecVerdict.Xml.Scan
import SpecVerdict.Yaml.Lexer
import SpecVerdict.Yaml.Parser
import SpecVerdict.Yaml.Plain
import SpecVerdict.Yaml.Scalar
import SpecVerdict.Yaml.Token

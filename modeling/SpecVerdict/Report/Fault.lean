import SpecVerdict.Gherkin.ParseError
import SpecVerdict.Report.Format

namespace SpecVerdict

/-- What is wrong with the content of a report. -/
inductive ReportFault where
  | malformedXml
  | malformedJson
  | notAnArray
  | notObjects
  /-- a value that the format does not allow in its place -/
  | illTyped
  /-- a number beyond the range of durations -/
  | overflow
  deriving DecidableEq, Repr

/-- Why there is no report: its format is unknown, its file or its content cannot be read, or a
number in it is too large. -/
inductive ReportError where
  | unrecognised (source : String)
  | unreadable (source : String)
  | invalid (source : String) (format : ReportFormat) (fault : ReportFault)
  | overflow
  deriving DecidableEq, Repr

def ReportFault.message : ReportFault → String
  | .malformedXml => s!"malformed XML: {detailMark}"
  | .malformedJson => s!"malformed JSON: {detailMark}"
  | .notAnArray => "top level must be an array"
  | .notObjects => "feature entries must be objects"
  | .illTyped => detailMark
  | .overflow => detailMark

namespace ReportError

def place (source : String) : String := if source == "" then "<content>" else source

/-- A fault in the content, which counts as an error of the report unless it is an overflow. -/
def ofFault (source : String) (format : ReportFormat) : ReportFault → ReportError
  | .overflow => .overflow
  | fault => .invalid (place source) format fault

def describe (source reason : String) : String := s!"{source}: {reason}"

def unrecognisedReason : String := "unrecognised report format"

def describeInvalid (source format reason : String) : String :=
  describe source s!"invalid {format} report: {reason}"

def message : ReportError → String
  | .unrecognised source => describe source unrecognisedReason
  | .unreadable source => describeInvalid source "unknown" s!"cannot read file: {detailMark}"
  | .invalid source format fault => describeInvalid source format.word fault.message
  | .overflow => detailMark

end ReportError

end SpecVerdict

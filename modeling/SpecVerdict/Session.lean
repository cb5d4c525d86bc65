import SpecVerdict.Correlation.Fault
import SpecVerdict.Gherkin.TagFilter
import SpecVerdict.Report.Merge

namespace SpecVerdict

structure Session where
  features : List Feature := []
  report : Report := {}
  parseErrors : List ParseError := []
  reportErrors : List ReportError := []
  filter : TagFilter := ⟨[], []⟩
  settings : CorrelationSettings := {}

namespace Session

def addFeature (s : Session) : Except ParseError Feature → Session
  | .ok f => { s with features := s.features ++ [f] }
  | .error e => { s with parseErrors := s.parseErrors ++ [e] }

/-- A report is merged into what is there; none if its features cannot be told apart. -/
def addReport? (s : Session) (report : Report) : Option Session :=
  (mergeAll? [s.report, report]).map fun report => { s with report }

def addReportError (s : Session) (e : ReportError) : Session :=
  { s with reportErrors := s.reportErrors ++ [e] }

def selected (s : Session) : List Feature := s.filter.applyIfAny s.features

def document (s : Session) : Except ComparisonFault Document :=
  correlate? s.settings s.selected s.report s.parseErrors s.reportErrors

end Session

end SpecVerdict

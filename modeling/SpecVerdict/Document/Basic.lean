import SpecVerdict.Correlation.Candidate
import SpecVerdict.Document.Tally
import SpecVerdict.Gherkin.Feature
import SpecVerdict.Gherkin.ParseError
import SpecVerdict.Report.Fault

namespace SpecVerdict

structure StepVerdict where
  step : Step
  /-- The text with the values of the row. -/
  text : String
  status : Status := .notExecuted
  duration : Float := 0
  error : Option String := none
  matched : Bool := false
  screenshots : List String := []

structure RowVerdict where
  row : ExampleRow
  status : Status := .notExecuted
  duration : Float := 0
  error : Option String := none
  result : Option Place := none

structure ScenarioVerdict where
  scenario : Scenario
  /-- The position of the rule around it. -/
  rule : Option Nat
  tags : List String
  status : Status := .notExecuted
  duration : Float := 0
  error : Option String := none
  failedLine : Json := .null
  steps : List StepVerdict := []
  backgroundSteps : List StepVerdict := []
  /-- The places of the results in the report. -/
  results : List Place := []
  rows : List RowVerdict := []

structure FeatureVerdict where
  feature : Feature
  scenarios : List ScenarioVerdict
  /-- The position of its report feature. -/
  result : Option Nat

namespace FeatureVerdict

def tally (f : FeatureVerdict) : StatusTally := .ofList (f.scenarios.map (·.status))

def status (f : FeatureVerdict) : Status := f.tally.status

def duration (f : FeatureVerdict) : Float := totalDuration (f.scenarios.map (·.duration))

def scenariosOf (f : FeatureVerdict) (rule : Option Nat) : List ScenarioVerdict :=
  f.scenarios.filter (·.rule == rule)

end FeatureVerdict

structure Document where
  title : Json
  features : List FeatureVerdict
  parseErrors : List ParseError
  reportErrors : List ReportError
  generatedAt : Option Timestamp
  sources : List String

def Document.find? (d : Document) (name : String) : Option FeatureVerdict :=
  d.features.find? (·.feature.name == name)

end SpecVerdict

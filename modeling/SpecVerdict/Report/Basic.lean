import SpecVerdict.Json.Basic
import SpecVerdict.Name.Parts
import SpecVerdict.Report.Status
import SpecVerdict.Time.Timestamp

namespace SpecVerdict

structure StepResult where
  keyword : String
  text : Json
  status : Status := .passed
  duration : Float := 0
  error : Option String := none
  line : Json := .null
  stackTrace : Option String := none
  screenshots : List String := []

/-- One run of a scenario, or of one row of an outline. -/
structure ScenarioResult where
  name : String
  status : Status := .notExecuted
  duration : Float := 0
  error : Option String := none
  steps : List StepResult := []
  timestamp : Option Timestamp := none
  tags : List Json := []
  stackTrace : Option String := none
  attachments : List String := []
  screenshots : List String := []
  parameters : List String := []
  named : List (String × String) := []
  exampleIndex : Option Int := none
  failedLine : Json := .null
  metadata : List (String × Json) := []

namespace ScenarioResult

def base (s : ScenarioResult) : String := baseName s.name

def withNameValues (s : ScenarioResult) : ScenarioResult :=
  if s.parameters.isEmpty && s.named.isEmpty then
    let parts := splitName s.name
    { s with parameters := parts.positional, named := parts.named }
  else s

end ScenarioResult

structure FeatureResult where
  name : Json
  filePath : Json := .str ""
  scenarios : List ScenarioResult := []
  tags : List Json := []
  duration : Float := 0

def totalDuration (durations : List Float) : Float := durations.foldl (· + ·) 0

namespace FeatureResult

/-- One failure fails a feature; it is skipped when all is skipped, and has passed when anything
has. -/
def status (f : FeatureResult) : Status :=
  let statuses := f.scenarios.map (·.status)
  if statuses.contains .failed then .failed
  else if !statuses.isEmpty && statuses.all (· == .skipped) then .skipped
  else if statuses.contains .passed then .passed
  else .notExecuted

end FeatureResult

inductive ReportFormat where
  | trx
  | nunit3
  | nunit2
  | xunit
  | junit
  | cucumber
  deriving DecidableEq, Repr

/-- One execution report, or the merge of several. -/
structure Report where
  features : List FeatureResult := []
  sources : List String := []
  formats : List ReportFormat := []
  generatedAt : Option Timestamp := none
  duration : Float := 0
  environment : List (String × String) := []

end SpecVerdict

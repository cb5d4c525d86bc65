import SpecVerdict.Correlation.Rows
import SpecVerdict.Correlation.Steps
import SpecVerdict.Document.Basic

namespace SpecVerdict

/-- One failure fails all; without one all has passed, or else the first status counts. -/
def jointStatus (statuses : List Status) : Status :=
  match statuses with
  | [] => .notExecuted
  | first :: _ =>
    if statuses.contains .failed then .failed
    else if statuses.all (· == .passed) then .passed
    else first

/-- The result that stands for a scenario: the first that failed, or else the result of the first
row, or else the first result. -/
def representative? (results : List Candidate) (rows : RowResults) : Option Candidate :=
  ((results.find? (·.result.status == .failed)).or (lookupKey 0 rows)).or results.head?

def valuesOf (scenario : Scenario) (rows : RowResults) (c : Candidate) : List (String × String) :=
  match rows.find? (·.2.place == c.place) with
  | some (i, _) => updateKeys [] (((scenario.exampleRows[i]?).map (·.values)).getD [])
  | none => []

def Feature.backgroundSteps (f : Feature) (rule : Option Nat) : List Step :=
  let ofRule := (rule.bind (f.rules[·]?)).bind (·.background)
  ([f.background, ofRule].filterMap id).flatMap (·.steps)

namespace StepVerdict

def ofMatch (values : List (String × String)) (status : Status) :
    Step × Option StepResult → StepVerdict
  | (step, some r) =>
    { step, text := fillIn values step.text, status := r.status, duration := r.duration
      error := r.error, matched := true, screenshots := r.screenshots }
  | (step, none) => { step, text := fillIn values step.text, status }

def ofStep (step : Step) : StepVerdict := { step, text := step.text }

end StepVerdict

def Scenario.rowVerdicts (s : Scenario) (rows : RowResults) : List RowVerdict :=
  s.exampleRows.zipIdx.map fun (row, i) =>
    match lookupKey i rows with
    | some c =>
      { row, status := c.result.status, duration := c.result.duration, error := c.result.error
        result := some c.place }
    | none => { row }

namespace ScenarioMatch

def rows (m : ScenarioMatch) : RowResults :=
  if m.scenario.isOutline then pairRows m.scenario m.found else []

def verdict (f : Feature) (m : ScenarioMatch) : ScenarioVerdict :=
  let tags := f.effectiveTags m.scenario (m.rule.bind (f.rules[·]?))
  let background := f.backgroundSteps m.rule
  match representative? m.found m.rows with
  | none =>
    { scenario := m.scenario, rule := m.rule, tags
      steps := m.scenario.steps.map .ofStep
      backgroundSteps := background.map .ofStep
      rows := m.scenario.rowVerdicts [] }
  | some c =>
    let status := jointStatus (m.found.map (·.result.status))
    let values := valuesOf m.scenario m.rows c
    let (before, pool) := matchSteps values c.result.steps background
    let backgroundSteps := before.map (StepVerdict.ofMatch values status)
    let steps := (matchSteps values pool m.scenario.steps).1.map (StepVerdict.ofMatch values status)
    let failedStep := (backgroundSteps ++ steps).find? fun s => s.matched && s.status == .failed
    { scenario := m.scenario, rule := m.rule, tags, status, steps, backgroundSteps
      duration := totalDuration (m.found.map (·.result.duration))
      error := c.result.error
      failedLine :=
        if c.result.failedLine.isTruthy then c.result.failedLine
        else Json.ofOption (fun s => .int s.step.line) failedStep
      results := m.found.map (·.place)
      rows := m.scenario.rowVerdicts m.rows }

end ScenarioMatch

/-- The document of parsed features, the report feature of each and its matched scenarios, with the
errors of what could not be read. -/
def Document.ofMatches (title : Json) (features : List (Feature × Option Nat))
    (matched : List (List ScenarioMatch)) (report : Report) (parseErrors : List ParseError)
    (reportErrors : List ReportError) : Document where
  title
  features := features.zipWith (fun (feature, result) ms =>
    { feature, result, scenarios := ms.map (·.verdict feature) }) matched
  parseErrors
  reportErrors
  generatedAt := report.generatedAt
  sources := report.sources

end SpecVerdict

import SpecVerdict.Decimal.Binary64
import SpecVerdict.Json.Inline
import SpecVerdict.Json.Parser
import SpecVerdict.Report.Console
import SpecVerdict.Report.RowMark

namespace SpecVerdict

namespace Cucumber

/-- The value under a key, which only an object has; null when it is absent. -/
def field (node : Json) (key : String) : Except ReportFault Json :=
  match node with
  | .obj fields => .ok ((lookupKey key fields).getD .null)
  | _ => .error .illTyped

def itemsOf (json : Json) : Except ReportFault (List Json) :=
  match json with
  | .arr items => .ok items
  | json => if json.isTruthy then .error .illTyped else .ok []

def textOf (json : Json) : Except ReportFault String :=
  match json with
  | .str s => .ok s
  | json => if json.isTruthy then .error .illTyped else .ok ""

def objectOf (json : Json) : Except ReportFault Json :=
  match json with
  | .obj fields => .ok (.obj fields)
  | json => if json.isTruthy then .error .illTyped else .ok (.obj [])

def orElse (json default : Json) : Json := if json.isTruthy then json else default

def seconds (json : Json) : Except ReportFault Float :=
  let quotient (n : Int) : Except ReportFault Float :=
    match floatOfQuotient? n 1000000000 with
    | some x => .ok x
    | none => .error .overflow
  match json with
  | .int n => quotient n
  | .bool true => quotient 1
  | .float x => if x == 0 then .ok 0 else .ok (x / 1000000000)
  | json => if json.isTruthy then .error .illTyped else .ok 0

def tags (node : Json) : Except ReportFault (List Json) := do
  let names ← (← itemsOf (← field node "tags")).mapM (field · "name")
  return names.filter (·.isTruthy)

def mediaType (embedding : Json) : Except ReportFault String := do
  let kind ← field embedding "mime_type"
  if kind.isTruthy then textOf kind
  else textOf (← field (← objectOf (← field embedding "media")) "type")

/-- An attached image as a data address; other attachments are passed over. -/
def screenshot? (embedding : Json) : Except ReportFault (Option String) := do
  let kind ← mediaType embedding
  if kind.startsWith "image/" then
    let data := ((embedding.get? "data").getD (.str "")).inlineText
    return some ("data:" ++ kind ++ ";base64," ++ data)
  return none

def splitMessage (message : String) : String × Option String :=
  let (first, rest) := splitFirst '\n' message.toList
  (String.ofList first, rest.map String.ofList)

def readStep (node : Json) : Except ReportFault StepResult := do
  let result ← objectOf (← field node "result")
  let status := ReportFormat.cucumber.status (some (← textOf (← field result "status")))
  let step : StepResult := {
    keyword := onText Text.trim (← textOf (← field node "keyword"))
    text := orElse (← field node "name") (.str "")
    status
    duration := ← seconds (← field result "duration")
    line := ← field node "line" }
  let message ← field result "error_message"
  let step ←
    if status == Status.failed && message.isTruthy then do
      let (error, stackTrace) := splitMessage (← textOf message)
      pure { step with error := some error, stackTrace }
    else pure step
  let screenshots ← (← itemsOf (← field node "embeddings")).mapM screenshot?
  return { step with screenshots := screenshots.filterMap id }

def firstFailure : List Json → Except ReportFault (Option Json)
  | [] => .ok none
  | hook :: hooks => do
    let result ← objectOf (← field hook "result")
    if ReportFormat.cucumber.status (some (← textOf (← field result "status"))) == .failed then
      return some (orElse (← field result "error_message") (.str "Hook failed"))
    firstFailure hooks

def hookFault (element : Json) : Except ReportFault (Option Json) := do
  firstFailure ((← itemsOf (← field element "before")) ++ (← itemsOf (← field element "after")))

def statusOfSteps (steps : List StepResult) : Status :=
  let statuses := steps.map (·.status)
  if statuses.isEmpty then .notExecuted
  else if statuses.all (· == .passed) then .passed
  else if statuses.contains .undefined then .undefined
  else if statuses.contains .pending then .pending
  else if statuses.contains .skipped then .skipped
  else .undefined

def failedLine (step : StepResult) : Except ReportFault Json := do
  if step.line.isTruthy then return step.line
  return Json.ofOption (fun n => .int n) (← failedLineOf [step.stackTrace])

def judge (s : ScenarioResult) (hookError : Option Json) : Except ReportFault ScenarioResult := do
  match s.steps.find? (·.status == .failed), hookError with
  | some step, _ =>
    return { s with
      status := .failed, error := step.error, stackTrace := step.stackTrace
      failedLine := ← failedLine step }
  | none, some message =>
    let message ← textOf message
    return { s with
      status := .failed, error := some (splitMessage message).1, stackTrace := some message }
  | none, none => return { s with status := statusOfSteps s.steps }

def readScenario (element : Json) (steps : List StepResult) :
    Except ReportFault ScenarioResult := do
  let s : ScenarioResult := {
    name := ← textOf (orElse (← field element "name") (.str "Unknown Scenario"))
    steps
    duration := totalDuration (steps.map (·.duration))
    timestamp := timestamp? (some (← textOf (← field element "start_timestamp")))
    tags := ← tags element
    metadata := [("Keyword", (element.get? "keyword").getD (.str ""))]
    screenshots := steps.flatMap (·.screenshots) }
  judge s.withNameValues (← hookFault element)

/-- A feature part way through its elements: the scenario results with the rows that their ids
tell, and the steps of a background that waits for its scenario. -/
structure Elements where
  scenarios : List (ScenarioResult × Option RowMark) := []
  background : List StepResult := []

/-- One more element. A background takes the place of one that still waits. -/
def addElement (e : Elements) (element : Json) : Except ReportFault Elements := do
  let steps ← (← itemsOf (← field element "steps")).mapM readStep
  if (← field element "type") == .str "background" then return { e with background := steps }
  let scenario ← readScenario element (e.background ++ steps)
  let mark ← RowMark.ofId (← textOf (← field element "id")).toList
  return { scenarios := e.scenarios ++ [(scenario, mark)] }

/-- The results whose ids tell a row get the row's index, in their order. -/
def giveRows : List (ScenarioResult × Option RowMark) → List Nat → List ScenarioResult
  | (s, some _) :: rest, index :: indices =>
    { s with exampleIndex := some (index : Int) } :: giveRows rest indices
  | (s, _) :: rest, indices => s :: giveRows rest indices
  | [], _ => []

def readFeature (node : Json) : Except ReportFault FeatureResult := do
  let name := orElse (← field node "name") (.str "Unknown Feature")
  let filePath := orElse (← field node "uri") (.str "")
  let tags ← tags node
  let elements ← (← itemsOf (← field node "elements")).foldlM addElement {}
  let scenarios := giveRows elements.scenarios (rowIndices (elements.scenarios.filterMap (·.2)))
  return {
    name, filePath, tags, scenarios
    duration := totalDuration (scenarios.map (·.duration)) }

/-- The earliest of the times, the first one of equal ones. -/
def earliest (times : List Timestamp) : Option Timestamp :=
  times.foldl (fun best t =>
    match best with
    | some b => if t.instant < b.instant then some t else some b
    | none => some t) none

def readNode (node : Json) : Except ReportFault FeatureResult :=
  if node.isObject then readFeature node else .error .notObjects

def readReport (content : Text) : Except ReportFault Report := do
  let data ← (Json.ofText content).mapError fun
    | .malformed => .malformedJson
    | .oversized => .illTyped
  match data with
  | .arr nodes =>
    let features ← nodes.mapM readNode
    return {
      features
      duration := totalDuration (features.map (·.duration))
      generatedAt := earliest ((features.flatMap (·.scenarios)).filterMap (·.timestamp)) }
  | _ => .error .notAnArray

end Cucumber

end SpecVerdict

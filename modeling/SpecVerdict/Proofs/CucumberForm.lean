import SpecVerdict.Correlation.Fault
import SpecVerdict.Proofs.ReportOverflow
import SpecVerdict.Proofs.RowIds

namespace SpecVerdict

namespace Json

/-- The value under a key; null when it is absent. -/
def under (json : Json) (key : String) : Json := (json.get? key).getD .null

/-- Whether an object or nothing stands under a key. -/
def HasObjectAt (json : Json) (key : String) : Prop :=
  (json.under key).isObject = true ∨ (json.under key).isTruthy = false

/-- Whether a list or nothing stands under a key, and its items have a property. -/
def HasListAt (json : Json) (key : String) (item : Json → Prop) : Prop :=
  ((∃ items, json.get? key = some (.arr items)) ∨ (json.under key).isTruthy = false) ∧
    ∀ value ∈ json.itemsAt key, item value

theorem hasListAt_of_absent {json : Json} {key : String} {item : Json → Prop}
    (h : json.get? key = none) : json.HasListAt key item := by
  refine ⟨.inr ?_, ?_⟩
  · rw [under, h]
    rfl
  · intro value hvalue
    rw [itemsAt, h] at hvalue
    cases hvalue

end Json

namespace Cucumber

open ComparisonFault (isPlain)

/-- A number or nothing. -/
def IsNumber : Json → Prop
  | .int _ | .float _ | .bool _ => True
  | json => json.isTruthy = false

/-- A text in which no line number is too long to be read. -/
def HasShortNumerals (t : Text) : Prop :=
  ∀ digits, digits <:+: t → digits.all isDecimalDigit = true → digits.length ≤ maxNumeralDigits

theorem HasShortNumerals.within {t piece : Text} (h : HasShortNumerals t) (hpiece : piece <:+: t) :
    HasShortNumerals piece := fun digits hd => h digits (hd.trans hpiece)

theorem hasShortNumerals_nil : HasShortNumerals [] := by
  intro digits hd _
  rw [List.infix_nil.mp hd]
  exact Nat.zero_le _

/-- A step or a hook with its result. -/
structure HasResult (node : Json) : Prop where
  object : node.isObject = true
  result : node.HasObjectAt "result"
  status : isPlain ((node.under "result").under "status") = true
  message : isPlain ((node.under "result").under "error_message") = true

structure IsEmbedding (node : Json) : Prop where
  object : node.isObject = true
  kind : isPlain (node.under "mime_type") = true
  media : node.HasObjectAt "media"
  mediaKind : isPlain ((node.under "media").under "type") = true

structure IsStep (node : Json) : Prop extends HasResult node where
  keyword : isPlain (node.under "keyword") = true
  name : isPlain (node.under "name") = true
  number : IsNumber ((node.under "result").under "duration")
  duration : ¬IsHuge node
  lines : HasShortNumerals ((node.under "result").under "error_message").text.toList
  embeddings : node.HasListAt "embeddings" IsEmbedding

structure IsElement (node : Json) : Prop where
  object : node.isObject = true
  name : isPlain (node.under "name") = true
  id : isPlain (node.under "id") = true
  row : IsRunId (node.under "id").text.toList
  started : isPlain (node.under "start_timestamp") = true
  tags : node.HasListAt "tags" (·.isObject = true)
  steps : node.HasListAt "steps" IsStep
  before : node.HasListAt "before" HasResult
  after : node.HasListAt "after" HasResult

structure IsFeature (node : Json) : Prop where
  object : node.isObject = true
  name : isPlain (node.under "name") = true
  path : isPlain (node.under "uri") = true
  tags : node.HasListAt "tags" (·.isObject = true)
  elements : node.HasListAt "elements" IsElement

/-- The status of a step or a hook. -/
def outcome (node : Json) : Status :=
  ReportFormat.cucumber.status (some ((node.under "result").under "status").text)

/-- The status of what has parts of these statuses. -/
def gravest (statuses : List Status) : Status :=
  ([.failed, .undefined, .pending, .skipped].find? statuses.contains).getD
    (if statuses.isEmpty then .notExecuted else .passed)

/-- One run that a report tells of. -/
structure ElementRun where
  name : String
  id : String
  status : Status
  deriving DecidableEq, Repr

/-- The status of a run: a hook counts only if it fails. -/
def runStatus (steps hooks : List Json) : Status :=
  if hooks.any (outcome · == .failed) then .failed else gravest (steps.map outcome)

/-- The run of an element with its steps and those of the background before it. -/
def runOf (steps : List Json) (element : Json) : ElementRun where
  name := (orElse (element.under "name") (.str "Unknown Scenario")).text
  id := (element.under "id").text
  status := runStatus steps (element.itemsAt "before" ++ element.itemsAt "after")

/-- The runs of elements, the first of which may follow a background. -/
def runsFrom (waiting : List Json) : List Json → List ElementRun
  | [] => []
  | element :: elements =>
    if element.under "type" == .str "background" then runsFrom (element.itemsAt "steps") elements
    else runOf (waiting ++ element.itemsAt "steps") element :: runsFrom [] elements

/-- The runs of a feature. -/
def runs (node : Json) : List ElementRun := runsFrom [] (node.itemsAt "elements")

/-- The runs whose normal name is a given one. -/
def runsNamed (node : Json) (key : String) : List ElementRun :=
  (runs node).filter (nameKey ·.name == key)

/-- The name of a feature. -/
def featureName (node : Json) : String :=
  (orElse (node.under "name") (.str "Unknown Feature")).text

end Cucumber

end SpecVerdict

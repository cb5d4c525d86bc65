import SpecVerdict.Name.Normal
import SpecVerdict.Report.TestCase

namespace SpecVerdict

namespace Trx

structure TestDefinition where
  name : String
  className : String
  description : Option String
  featureTitle : Option String
  categories : List String
  deriving Repr

def featureTitle? (space : String) (unit : XmlNode) : Option String :=
  let isTitle (p : XmlNode) := elementText? (p.childAt? ⟨space, "Key"⟩) == some "FeatureTitle"
  ((unit.elementsAt ⟨space, "Property"⟩).filter isTitle).getLast?.bind fun p =>
    elementText? (p.childAt? ⟨space, "Value"⟩)

def readDefinition (space : String) (unit : XmlNode) : TestDefinition where
  name := (unit.filled? "name").getD "Unknown"
  className := ((unit.childAt? ⟨space, "TestMethod"⟩).bind (·.value? "className")).getD "Unknown"
  description := elementText? (unit.childAt? ⟨space, "Description"⟩)
  featureTitle := featureTitle? space unit
  categories := (unit.elementsAt ⟨space, "TestCategoryItem"⟩).filterMap (·.filled? "TestCategory")

/-- The test definitions by id; the last one of an id counts. -/
def definitions (space : String) (root : XmlNode) : List (String × TestDefinition) :=
  ((root.childAt? ⟨space, "TestDefinitions"⟩).map fun container =>
    updateKeys [] ((container.childrenAt ⟨space, "UnitTest"⟩).map fun unit =>
      (unit.value "id", readDefinition space unit))).getD []

/-- The feature that a class stands for: its title, or else the class name without its namespace
and the ending `Feature`, as words. -/
def featureName (className : String) (definition : Option TestDefinition) : String :=
  match definition.bind (·.featureTitle) with
  | some title => title
  | none =>
    let short := Text.afterLast '.' (splitFirst ',' className.toList).1
    let ending := "Feature".toList
    let short := if Text.endsWith ending short && ending.length < short.length
      then short.take (short.length - ending.length) else short
    spacedWords (String.ofList short)

/-- The scenario that a test stands for: its description in place of the defined name, or else
the name of the test as words. -/
def scenarioName (testName : Option String) (definition : Option TestDefinition) : String :=
  let test := (testName.or (definition.map (·.name))).getD "Unknown Scenario"
  let described := definition.bind fun d => d.description.bind fun description =>
    (Text.after? d.name.toList test.toList).map fun rest => description ++ String.ofList rest
  described.getD (spacedWords test)

def elapsed (value : String) : Except ReportFault Float :=
  (Text.timespan value.toList).mapError fun
    | .oversized => .illTyped
    | .overflow => .overflow

def withOutput (space : String) (s : ScenarioResult) (output : XmlNode) :
    Except ReportFault ScenarioResult := do
  let s ← match output.childAt? ⟨space, "ErrorInfo"⟩ with
    | none => pure s
    | some info => do
      let error := elementText? (info.childAt? ⟨space, "Message"⟩)
      let stackTrace := elementText? (info.childAt? ⟨space, "StackTrace"⟩)
      let line ← failedLineOf [error, stackTrace]
      pure { s with error, stackTrace, failedLine := Json.ofOption (fun n => .int n) line }
  s.withConsole (elementText? (output.childAt? ⟨space, "StdOut"⟩))

def readResult (space : String) (definition : Option TestDefinition) (result : XmlNode) :
    Except ReportFault ScenarioResult := do
  let s : ScenarioResult := {
    name := scenarioName (result.filled? "testName") definition
    status := ReportFormat.trx.status (result.value? "outcome")
    duration := ← elapsed (result.value "duration")
    timestamp := timestamp? (result.value? "startTime")
    tags := ((definition.map (·.categories)).getD []).map .str
    attachments := (result.elementsAt ⟨space, "ResultFile"⟩).filterMap (·.filled? "path")
    metadata := ((result.filled? "dataRowInfo").map fun row => [("DataRow", .str row)]).getD [] }
  match result.childAt? ⟨space, "Output"⟩ with
  | none => return s.withNameValues
  | some output => withOutput space s.withNameValues output

def rowsOf (space : String) (result : XmlNode) : List XmlNode :=
  let inner := result.childAt? ⟨space, "InnerResults"⟩
  match (inner.map (·.childrenAt ⟨space, "UnitTestResult"⟩)).getD [] with
  | [] => [result]
  | rows => rows

def addResult (space : String) (definitions : List (String × TestDefinition))
    (features : List (String × FeatureResult)) (result : XmlNode) :
    Except ReportFault (List (String × FeatureResult)) := do
  let definition := lookupKey (result.value "testId") definitions
  let className := (definition.map (·.className)).getD "Unknown"
  let feature := (lookupKey className features).getD
    { name := .str (featureName className definition), filePath := .str className }
  let scenarios ← (rowsOf space result).mapM (readResult space definition)
  let feature := { feature with
    scenarios := feature.scenarios ++ scenarios
    duration := (scenarios.map (·.duration)).foldl (· + ·) feature.duration }
  return setKey className feature features

def environment (space : String) (root : XmlNode) : List (String × String) :=
  (((root.childAt? ⟨space, "TestSettings"⟩).map (·.labelled [("name", "TestSettings")])).getD []) ++
    root.labelled [("runUser", "User"), ("name", "Run")]

def readReport (root : XmlNode) : Except ReportFault Report := do
  let space := root.name.plainSpace
  let times := root.childAt? ⟨space, "Times"⟩
  let time (key : String) := times.bind fun t => timestamp? (t.value? key)
  let results := (((root.childAt? ⟨space, "Results"⟩).map
    (·.childrenAt ⟨space, "UnitTestResult"⟩)).getD [])
  let features ← results.foldlM (addResult space (definitions space root)) []
  return {
    features := features.map (·.2)
    generatedAt := time "start"
    duration := match time "start", time "finish" with
      | some start, some finish => start.secondsBetween finish
      | _, _ => 0
    environment := environment space root }

end Trx

end SpecVerdict

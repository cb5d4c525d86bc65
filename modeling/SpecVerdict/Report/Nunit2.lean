import SpecVerdict.Report.TestCase

namespace SpecVerdict

namespace Nunit2

def categories (n : XmlNode) : List Json :=
  ((n.child? "categories").map fun c =>
    (c.childrenNamed "category").filterMap fun c => (c.filled? "name").map .str).getD []

def caseStatus (result success executed : Option String) : Status :=
  match result.filter (· != "") with
  | some result => ReportFormat.nunit2.status (some result)
  | none =>
    if executed == some "False" then .notExecuted
    else if success == some "True" then .passed
    else if success == some "False" then .failed
    else .undefined

/-- The name of a test case: its description, or else the last part of its dotted name, with the
row values behind it. -/
def caseName (name : Option String) (description : Option String) : String :=
  let raw := name.getD "Unknown Scenario"
  let method := String.ofList (Text.afterLast '.' (baseName raw).toList)
  description.getD method ++ String.ofList (rowSuffix raw)

def readCase (case : XmlNode) : Except ReportFault ScenarioResult := do
  let s : ScenarioResult := {
    name := caseName (case.filled? "name") (case.filled? "description")
    status := caseStatus (case.value? "result") (case.value? "success") (case.value? "executed")
    duration := optionalFloat (case.value? "time")
    tags := categories case }
  let s ← s.withNameValues.withFailure (case.child? "failure")
  let message (reason : XmlNode) :=
    some ((elementText? (reason.child? "message")).getD "Test skipped")
  (s.withReason message (case.child? "reason")).withConsole (elementText? (case.child? "output"))

def featureFile (suite : XmlNode) : String :=
  ((suite.elementsNamed "property").findSome? fun p =>
    if p.value? "name" == some "FeatureFile" then p.filled? "value" else none).getD ""

def readFeature (suite : XmlNode) : Except ReportFault FeatureResult := do
  return {
    name := .str (((suite.filled? "description").or (suite.filled? "name")).getD "Unknown Feature")
    filePath := .str (featureFile suite)
    tags := categories suite
    duration := optionalFloat (suite.value? "time")
    scenarios := ← (suite.elementsNamed "test-case").mapM readCase }

def environmentLabels : List (String × String) :=
  [("nunit-version", "Framework"), ("clr-version", "CLR"), ("os-version", "OS"),
    ("platform", "Platform"), ("machine-name", "Machine")]

def fixtures (root : XmlNode) : List XmlNode :=
  (root.elementsNamed "test-suite").filter (·.value? "type" == some "TestFixture")

def startTime (root : XmlNode) : Option Timestamp :=
  (root.filled? "date").bind fun date =>
    timestamp? (some (date ++ " " ++ (root.filled? "time").getD "00:00:00"))

def readReport (root : XmlNode) : Except ReportFault Report := do
  let features := Report.dropEmpty (← (fixtures root).mapM readFeature)
  return Report.withStamp {
    features
    generatedAt := startTime root
    duration := totalDuration (features.map (·.duration))
    environment := ((root.child? "environment").map (·.labelled environmentLabels)).getD [] }

end Nunit2

end SpecVerdict

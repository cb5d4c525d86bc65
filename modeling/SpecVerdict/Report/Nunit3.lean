import SpecVerdict.Report.TestCase

namespace SpecVerdict

namespace Nunit3

def properties (n : XmlNode) : List (String × String) :=
  ((n.child? "properties").map fun p =>
    (p.childrenNamed "property").map fun p => (p.value "name", p.value "value")).getD []

def property? (n : XmlNode) (key : String) : Option String :=
  ((properties n).find? fun (name, value) => name == key && value != "").map (·.2)

def categories (n : XmlNode) : List Json :=
  (properties n).filterMap fun (name, value) =>
    if name == "Category" then some (.str value) else none

mutual

/-- The test cases at or below an element of a suite, in document order, each with the innermost
description that the suites around it give. -/
def casesAt (description : Option String) : XmlNode → List (XmlNode × Option String)
  | .text _ => []
  | .element name attributes content =>
    let n := XmlNode.element name attributes content
    if n.isNamed "test-case" then [(n, description)]
    else if n.isNamed "test-suite" then casesIn ((property? n "Description").or description) content
    else []

def casesIn (description : Option String) : List XmlNode → List (XmlNode × Option String)
  | [] => []
  | n :: ns => casesAt description n ++ casesIn description ns

end

/-- The name of a test case: its description or the inherited one, with the row values behind
it, or else the name it has. -/
def caseName (name : Option String) (description : Option String) : String :=
  let raw := name.getD "Unknown Scenario"
  match description with
  | none => raw
  | some description => description ++ String.ofList (Text.trim (rowSuffix raw))

/-- A test case labelled so has failed even if its result says otherwise. -/
def failureLabels : List String := ["Error", "Cancelled"]

def readStatus (case : XmlNode) : Status :=
  let status := ReportFormat.nunit3.status (case.value? "result")
  if status == .passed && failureLabels.contains (case.value "label") then .failed else status

def readCase (case : XmlNode) (inherited : Option String) : Except ReportFault ScenarioResult := do
  let parts := splitName (case.value "name")
  let s : ScenarioResult := {
    name := caseName (case.filled? "name") ((property? case "Description").or inherited)
    status := readStatus case
    duration := optionalFloat (case.value? "duration")
    timestamp := timestamp? (case.value? "start-time")
    tags := categories case
    parameters := parts.positional
    named := parts.named
    attachments := (case.elementsNamed "attachment").filterMap fun n =>
      elementText? (n.child? "filePath")
    metadata := [("FullName", .str (case.value "fullname"))] }
  let s ← s.withNameValues.withFailure (case.child? "failure")
  let s := s.withReason (fun r => elementText? (r.child? "message")) (case.child? "reason")
  s.withConsole (elementText? (case.child? "output"))

def featureFile (suite : XmlNode) : String :=
  ((property? suite "FeatureFile").or ((suite.elementsNamed "property").findSome? fun p =>
    if p.value? "name" == some "FeatureFile" then p.filled? "value" else none)).getD ""

def readFeature (suite : XmlNode) : Except ReportFault FeatureResult := do
  return {
    name := .str (((property? suite "Description").or (suite.filled? "name")).getD "Unknown Feature")
    filePath := .str (featureFile suite)
    tags := categories suite
    duration := optionalFloat (suite.value? "duration")
    scenarios := ← (casesIn none suite.content).mapM fun (case, description) =>
      readCase case description }

def environmentLabels : List (String × String) :=
  [("framework-version", "Framework"), ("clr-version", "CLR"), ("os-version", "OS"),
    ("platform", "Platform"), ("machine-name", "Machine")]

def fixtures (root : XmlNode) : List XmlNode :=
  (root.elementsNamed "test-suite").filter (·.value? "type" == some "TestFixture")

def readReport (root : XmlNode) : Except ReportFault Report := do
  let features ← (fixtures root).mapM readFeature
  let environment := (root.children.flatMap (·.elementsNamed "environment")).head?
  return Report.withStamp {
    features := Report.dropEmpty features
    generatedAt := timestamp? (root.value? "start-time")
    duration := optionalFloat (root.value? "duration")
    environment := (environment.map (·.labelled environmentLabels)).getD [] }

end Nunit3

end SpecVerdict

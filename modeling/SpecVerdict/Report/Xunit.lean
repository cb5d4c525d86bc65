import SpecVerdict.Report.TestCase

namespace SpecVerdict

namespace Xunit

def traits (test : XmlNode) : List (String × String) :=
  ((test.child? "traits").map fun t =>
    (t.childrenNamed "trait").map fun t => (t.value "name", t.value "value")).getD []

def trait? (key : String) (traits : List (String × String)) : Option String :=
  (traits.find? fun (name, value) => name == key && value != "").map (·.2)

/-- The feature title of a test: its first title trait, unless that is empty. -/
def title? (traits : List (String × String)) : Option String :=
  let title := traits.find? fun (name, _) => name == "FeatureTitle" || name == "Feature"
  (title.map (·.2)).filter (· != "")

/-- The name of a test: its description with the row values behind it, or else its trimmed
name. -/
def testName (name : Option String) (description : Option String) : String :=
  let raw := onText Text.trim (name.getD "Unknown Scenario")
  match description with
  | none => raw
  | some description => description ++ String.ofList (rowSuffix raw)

def readTest (test : XmlNode) : Except ReportFault ScenarioResult := do
  let traits := traits test
  let s : ScenarioResult := {
    name := testName (test.filled? "name") (trait? "Description" traits)
    status := ReportFormat.xunit.status (test.value? "result")
    duration := optionalFloat (test.value? "time")
    tags := traits.filterMap fun (name, value) =>
      if name == "Category" && value != "" then some (.str value) else none
    metadata := [("Method", .str (test.value "method")), ("Type", .str (test.value "type"))] }
  let s ← s.withNameValues.withFailure (test.child? "failure")
  let message (reason : XmlNode) := (elementText? (reason.child? "message")).or reason.trimmedText?
  (s.withReason message (test.child? "reason")).withConsole (elementText? (test.child? "output"))

def readFeature (collection : XmlNode) : Except ReportFault FeatureResult := do
  let tests := collection.childrenNamed "test"
  return {
    name := .str (((tests.findSome? (title? <| traits ·)).or (collection.filled? "name")).getD
      "Unknown Feature")
    filePath := .str ((tests.findSome? (trait? "FeatureFile" <| traits ·)).getD "")
    duration := optionalFloat (collection.value? "time")
    scenarios := ← tests.mapM readTest }

def environmentLabels : List (String × String) :=
  [("name", "AssemblyName"), ("test-framework", "Framework"), ("environment", "Environment")]

def startTime (assembly : XmlNode) : Option Timestamp :=
  (assembly.filled? "run-date").bind fun date =>
    timestamp? (some (date ++ " " ++ (assembly.filled? "run-time").getD "00:00:00"))

def assemblies (root : XmlNode) : List XmlNode :=
  if root.isNamed "assemblies" then root.childrenNamed "assembly" else [root]

def readReport (root : XmlNode) : Except ReportFault Report := do
  let assemblies := assemblies root
  let features ← (assemblies.flatMap (·.childrenNamed "collection")).mapM readFeature
  return Report.withStamp {
    features := Report.dropEmpty features
    generatedAt := assemblies.findSome? startTime
    duration := totalDuration (assemblies.map fun a => optionalFloat (a.value? "time"))
    environment :=
      ((assemblies.map (·.labelled environmentLabels)).find? (!·.isEmpty)).getD [] }

end Xunit

end SpecVerdict

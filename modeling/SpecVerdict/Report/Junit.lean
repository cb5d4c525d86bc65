import SpecVerdict.Report.TestCase

namespace SpecVerdict

namespace Junit

/-- The properties of a suite; the value is an attribute or else the text inside. -/
def properties (suite : XmlNode) : List (String × String) :=
  ((suite.child? "properties").map fun p =>
    updateKeys [] ((p.childrenNamed "property").map fun p =>
      (p.value "name", (p.filled? "value").getD (String.ofList p.leadingText)))).getD []

def property? (key : String) (properties : List (String × String)) : Option String :=
  (lookupKey key properties).filter (· != "")

def bracketTags? : Text → Option Text
  | [] => none
  | '[' :: '@' :: c :: t =>
    let inside (c : Char) := c != ']' && c != '\n'
    if c != '\n' && (t.dropWhile inside).head? == some ']' then some (c :: t.takeWhile inside)
    else bracketTags? ('@' :: c :: t)
  | _ :: t => bracketTags? t

def classTags (className : String) : List Json :=
  (((bracketTags? className.toList).map (Text.splitOn ',')).getD []).filterMap fun tag =>
    let tag := Text.trim tag
    if tag.isEmpty then none else some (.str (String.ofList ('@' :: tag.dropWhile (· == '@'))))

def tagList (value : String) : List Json :=
  (Text.words (value.toList.map fun c => if c == ',' then ' ' else c)).map fun t =>
    .str (String.ofList t)

def readStatus (case : XmlNode) : Status :=
  if (case.child? "failure").isSome || (case.child? "error").isSome then .failed
  else if (case.child? "skipped").isSome then .skipped
  else .passed

def withProblem (s : ScenarioResult) (problem : Option XmlNode) :
    Except ReportFault ScenarioResult := do
  match problem with
  | none => return s
  | some problem =>
    let stackTrace := problem.trimmedText?
    let error := (problem.filled? "message").or stackTrace
    let line ← failedLineOf [stackTrace, error]
    return { s with error, stackTrace, failedLine := Json.ofOption (fun n => .int n) line }

def readCase (started : Option Timestamp) (case : XmlNode) : Except ReportFault ScenarioResult := do
  let className := case.filled? "classname"
  let s : ScenarioResult := {
    name := (case.filled? "name").getD "Unknown Scenario"
    status := readStatus case
    duration := optionalFloat (case.value? "time")
    timestamp := (timestamp? (case.value? "timestamp")).or started
    tags := (className.map classTags).getD []
    metadata := (className.map fun c => [("ClassName", .str c)]).getD [] }
  let s ← withProblem s.withNameValues ((case.child? "failure").or (case.child? "error"))
  let s := match case.child? "skipped" with
    | some skipped => { s with error := (skipped.filled? "message").getD "Test skipped" }
    | none => s
  s.withConsole (elementText? (case.child? "system-out"))

def startTime (suite : XmlNode) : Option Timestamp := timestamp? (suite.value? "timestamp")

def readFeature (suite : XmlNode) : Except ReportFault FeatureResult := do
  let properties := properties suite
  return {
    name := .str (((property? "feature.name" properties).or (suite.filled? "name")).getD
      "Unknown Feature")
    filePath := .str (((property? "feature.file" properties).or
      (property? "featureFile" properties)).getD "")
    tags := tagList ((lookupKey "feature.tags" properties).getD "")
    duration := optionalFloat (suite.value? "time")
    scenarios := ← (suite.childrenNamed "testcase").mapM (readCase (startTime suite)) }

/-- What a suite tells about where it ran; its filled properties win over its attributes. -/
def environment (suite : XmlNode) : List (String × String) :=
  updateKeys
    (suite.labelled [("name", "TestSuite"), ("hostname", "Hostname"), ("timestamp", "Timestamp")])
    ((properties suite).filter fun (key, value) => key != "" && value != "")

def suites (root : XmlNode) : List XmlNode :=
  if root.isNamed "testsuite" then [root] else root.elementsNamed "testsuite"

def readReport (root : XmlNode) : Except ReportFault Report := do
  let suites := suites root
  let features ← suites.mapM readFeature
  let started :=
    (suites.filter fun suite => !(suite.childrenNamed "testcase").isEmpty).findSome? startTime
  return Report.withStamp {
    features := Report.dropEmpty features
    generatedAt := started
    duration := totalDuration (suites.map fun suite => optionalFloat (suite.value? "time"))
    environment := ((suites.map environment).find? (!·.isEmpty)).getD [] }

end Junit

end SpecVerdict

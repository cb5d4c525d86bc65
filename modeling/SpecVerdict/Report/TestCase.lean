import SpecVerdict.Report.Console
import SpecVerdict.Xml.Node

namespace SpecVerdict

def XmlNode.labelled (n : XmlNode) (labels : List (String × String)) : List (String × String) :=
  labels.filterMap fun (key, label) => (n.filled? key).map (label, ·)

def rowSuffix (name : String) : Text := name.toList.drop (baseName name).length

namespace ScenarioResult

def withFailure (s : ScenarioResult) (failure : Option XmlNode) :
    Except ReportFault ScenarioResult := do
  match failure with
  | none => return s
  | some failure =>
    let error := elementText? (failure.child? "message")
    let stackTrace := elementText? (failure.child? "stack-trace")
    let line ← failedLineOf [error, stackTrace]
    return { s with error, stackTrace, failedLine := Json.ofOption (fun n => .int n) line }

def withReason (s : ScenarioResult) (message : XmlNode → Option String)
    (reason : Option XmlNode) : ScenarioResult :=
  match reason with
  | some reason => if s.status == .skipped then { s with error := message reason } else s
  | none => s

end ScenarioResult

namespace Report

def withStamp (r : Report) : Report :=
  let stamp (s : ScenarioResult) := { s with timestamp := s.timestamp.or r.generatedAt }
  { r with features := r.features.map fun f => { f with scenarios := f.scenarios.map stamp } }

def dropEmpty (features : List FeatureResult) : List FeatureResult :=
  features.filter (!·.scenarios.isEmpty)

end Report

end SpecVerdict

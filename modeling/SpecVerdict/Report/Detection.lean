import SpecVerdict.Report.Format
import SpecVerdict.Xml.Arrival

namespace SpecVerdict

namespace ReportFormat

def trxNamespace : String := "http://microsoft.com/schemas/VisualStudio/TeamTest/2010"

/-- Whether a format has this root element. Test results in another namespace are known by the
ending of their source. -/
def hasRoot (format : ReportFormat) (root : XmlName) (source : String) : Bool :=
  match format with
  | .trx =>
    root.name == "TestRun" && (root.plainSpace == trxNamespace ||
      Text.endsWith ".trx".toList (Text.lower source.toList))
  | .nunit3 => root.name == "test-run"
  | .nunit2 => root.name == "test-results"
  | .xunit => root.name == "assemblies" || root.name == "assembly"
  | .junit => root.name == "testsuites" || root.name == "testsuite"
  | .cucumber => false

def jsonStart : Nat := 2048

def isFeatureArray (start : Text) : Bool :=
  match start.dropWhile Xml.isLeading with
  | '[' :: rest =>
    (Text.trimStart rest).head? == some ']' || Text.occursIn "\"elements\"".toList rest ||
      (Text.occursIn "\"uri\"".toList rest && Text.occursIn "\"keyword\"".toList rest)
  | _ => false

def detect (content : Text) (source : String) : Option ReportFormat :=
  match Xml.rootName? content with
  | some root => all.find? (·.hasRoot root source)
  | none => if isFeatureArray (content.take jsonStart) then some .cucumber else none

end ReportFormat

end SpecVerdict

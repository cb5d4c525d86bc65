import SpecVerdict.Report.Cucumber
import SpecVerdict.Report.Detection
import SpecVerdict.Report.Junit
import SpecVerdict.Report.Nunit2
import SpecVerdict.Report.Nunit3
import SpecVerdict.Report.RowOrder
import SpecVerdict.Report.Trx
import SpecVerdict.Report.Xunit
import SpecVerdict.Xml.Reader

namespace SpecVerdict

namespace ReportFormat

def readXml (content : Text) (read : XmlNode → Except ReportFault Report) :
    Except ReportFault Report :=
  match XmlNode.ofText? content with
  | some root => read root
  | none => .error .malformedXml

def readContent (format : ReportFormat) (content : Text) : Except ReportFault Report :=
  match format with
  | .trx => readXml content Trx.readReport
  | .nunit3 => readXml content Nunit3.readReport
  | .nunit2 => readXml content Nunit2.readReport
  | .xunit => readXml content Xunit.readReport
  | .junit => readXml content Junit.readReport
  | .cucumber => Cucumber.readReport content

end ReportFormat

namespace Report

def ofFormat (format : ReportFormat) (content : Text) (source : String) :
    Except ReportError Report :=
  match format.readContent content with
  | .ok report =>
    .ok { report with
      sources := if source == "" then [] else [source]
      formats := [format] }.withOrderedRows
  | .error fault => .error (.ofFault source format fault)

def ofText (content : Text) (source : String) : Except ReportError Report :=
  match ReportFormat.detect content source with
  | some format => ofFormat format content source
  | none => .error (.unrecognised (ReportError.place source))

end Report

end SpecVerdict

import SpecVerdict.Config.Value
import SpecVerdict.Files.Content
import SpecVerdict.Files.Pattern
import SpecVerdict.Report.Merge
import SpecVerdict.Report.Reader

namespace SpecVerdict

namespace Report

def patternsOf (config : Json) : Json :=
  config.filledSetting "results.patterns" (.arr ["**/*.xml", "**/*.trx", "**/*.json"])

def discover (disk : Disk) (folder : Path) (patterns : Json) : Except PatternFault (List Path) := do
  disk.search folder (← PathPattern.listOf patterns)

def ofFile (disk : Disk) (path : String) : Except ReportError Report :=
  match disk.read? path with
  | some content => ofText content.toList path
  | none => .error (.unreadable path)

/-- The reports that could be read and the errors of the others; a number that is too large ends the
reading. -/
def collect : List (Except ReportError Report) → Except ReportError (List Report × List ReportError)
  | [] => .ok ([], [])
  | .error .overflow :: _ => .error .overflow
  | .error e :: outcomes => (collect outcomes).map fun (reports, errors) => (reports, e :: errors)
  | .ok report :: outcomes =>
    (collect outcomes).map fun (reports, errors) => (report :: reports, errors)

def ofFiles (disk : Disk) (paths : List String) :
    Except ReportError (List Report × List ReportError) :=
  collect (paths.map (ofFile disk))

end Report

end SpecVerdict
